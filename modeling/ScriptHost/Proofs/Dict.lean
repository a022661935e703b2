import Mathlib.Data.List.Nodup
import Mathlib.Data.String.Basic
import Mathlib.Tactic.Tauto
import ScriptHost.Dict

set_option autoImplicit false

namespace ScriptHost.Dict

variable {α β : Type}

@[simp] theorem get?_nil (key : String) : get? ([] : List (String × α)) key = none := rfl

theorem get?_cons (name key : String) (value : α) (d : List (String × α)) :
    get? ((name, value) :: d) key = if key = name then some value else get? d key := by
  by_cases equal : key = name
  · simp [get?, equal]
  · have different : (key == name) = false := by simpa using equal
    simp [get?, List.lookup_cons, equal, different]

theorem get?_map (f : α → β) (d : List (String × α)) (key : String) :
    get? (d.map fun entry => (entry.1, f entry.2)) key = (get? d key).map f := by
  induction d with
  | nil => rfl
  | cons entry rest ih =>
      obtain ⟨name, value⟩ := entry
      rw [List.map_cons, get?_cons, get?_cons, ih]
      split <;> rfl

@[simp] theorem keys_map (f : String × α → β) (d : List (String × α)) :
    keys (d.map fun entry => (entry.1, f entry)) = keys d := by
  simp [keys]

theorem keys_map_pair (names : List String) (f : String → α) :
    keys (names.map fun name => (name, f name)) = names := by
  rw [keys, List.map_map]
  exact List.map_id names

@[simp] theorem keys_append (first second : List (String × α)) :
    keys (first ++ second) = keys first ++ keys second := by
  simp [keys]

theorem mem_keys_of_mem {entry : String × α} {d : List (String × α)} (member : entry ∈ d) :
    entry.1 ∈ keys d :=
  List.mem_map_of_mem member

theorem mem_of_get? {d : List (String × α)} {key : String} {value : α}
    (found : get? d key = some value) : (key, value) ∈ d := by
  induction d with
  | nil => simp at found
  | cons entry rest ih =>
      obtain ⟨name, other⟩ := entry
      rw [get?_cons] at found
      split at found
      · simp_all
      · exact List.mem_cons_of_mem _ (ih found)

theorem get?_eq_none_iff {d : List (String × α)} {key : String} :
    get? d key = none ↔ key ∉ keys d := by
  induction d with
  | nil => simp
  | cons entry rest ih =>
      obtain ⟨name, value⟩ := entry
      rw [get?_cons]
      by_cases equal : key = name <;> simp [equal, ih]

theorem contains_iff {d : List (String × α)} {key : String} :
    contains d key = true ↔ key ∈ keys d := by
  rw [contains, Option.isSome_iff_ne_none, Ne, get?_eq_none_iff, not_not]

/-- No name is missing exactly if all names are there. -/
theorem find?_missing_eq_none {names : List String} {d : List (String × α)} :
    (names.find? fun name => !contains d name) = none ↔ names ⊆ keys d := by
  simp [List.find?_eq_none, List.subset_def, contains_iff]

theorem sorted_nil : Sorted ([] : List (String × α)) := List.Pairwise.nil

theorem sorted_cons {name : String} {value : α} {d : List (String × α)} :
    Sorted ((name, value) :: d) ↔ (∀ key ∈ keys d, name < key) ∧ Sorted d :=
  List.pairwise_cons

theorem sorted_map (f : α → β) {d : List (String × α)} :
    Sorted (d.map fun entry => (entry.1, f entry.2)) ↔ Sorted d := by
  rw [Sorted, Sorted, keys_map fun entry => f entry.2]

theorem Sorted.nodup {d : List (String × α)} (sorted : Sorted d) : (keys d).Nodup :=
  sorted.imp ne_of_lt

/-- Where names are different, to be found is to be in. -/
theorem get?_eq_some_iff {d : List (String × α)} {key : String} {value : α}
    (distinct : (keys d).Nodup) : get? d key = some value ↔ (key, value) ∈ d := by
  refine ⟨mem_of_get?, fun member => ?_⟩
  induction d with
  | nil => simp at member
  | cons entry rest ih =>
      obtain ⟨name, other⟩ := entry
      rw [keys_cons, List.nodup_cons] at distinct
      rw [get?_cons]
      rcases List.mem_cons.mp member with here | later
      · simp_all
      · have named : key ∈ keys rest := mem_keys_of_mem later
        have different : key ≠ name := by
          rintro rfl
          exact distinct.1 named
        rw [if_neg different]
        exact ih distinct.2 later

/-- Sorted dictionaries have their names in the same order. -/
theorem keys_eq_of_mem {d : List (String × α)} {e : List (String × β)} (sorted : Sorted d)
    (sorted' : Sorted e)
    (same : ∀ name, name ∈ keys d ↔ name ∈ keys e) : keys d = keys e := by
  have order := (List.perm_ext_iff_of_nodup sorted.nodup sorted'.nodup).mpr same
  exact order.eq_of_pairwise (fun _ _ _ _ less more => absurd less (not_lt_of_gt more)) sorted
    sorted'

/-- Dictionaries with the same names are told apart by what is found under them. -/
theorem ext_of_keys {d e : List (String × α)} (distinct : (keys d).Nodup)
    (names : keys d = keys e) (same : ∀ name ∈ keys d, get? d name = get? e name) : d = e := by
  induction d generalizing e with
  | nil => exact (List.map_eq_nil_iff.mp names.symm).symm
  | cons entry rest ih =>
      obtain ⟨name, value⟩ := entry
      cases e with
      | nil => cases names
      | cons other more =>
          obtain ⟨other, found⟩ := other
          simp only [keys_cons, List.cons.injEq] at names
          obtain ⟨rfl, names⟩ := names
          rw [keys_cons, List.nodup_cons] at distinct
          have first := same name (by simp)
          rw [get?_cons, get?_cons, if_pos rfl, if_pos rfl, Option.some.injEq] at first
          have others : ∀ key ∈ keys rest, get? rest key = get? more key := by
            intro key member
            have different : key ≠ name := by
              rintro rfl
              exact distinct.1 member
            have later := same key (by simp [member])
            rwa [get?_cons, get?_cons, if_neg different, if_neg different] at later
          rw [first, ih distinct.2 names others]

/-- A sorted dictionary that has the least of all names that it may have has it first. -/
theorem eq_head_of_least {name : String} {names : List String} {entry : String × α}
    {rest : List (String × α)} (least : ∀ other ∈ names, name < other)
    (sorted : Sorted (entry :: rest)) (within : keys (entry :: rest) ⊆ name :: names)
    (has : name ∈ keys (entry :: rest)) : entry.1 = name ∧ keys rest ⊆ names := by
  obtain ⟨first, -⟩ := sorted_cons.mp sorted
  rw [keys_cons, List.cons_subset] at within
  have same : entry.1 = name := by
    rcases List.mem_cons.mp has with same | behind
    · exact same.symm
    · refine (List.mem_cons.mp within.1).resolve_right fun later => ?_
      exact absurd (least _ later) (not_lt_of_gt (first name behind))
  refine ⟨same, fun other member => ?_⟩
  exact List.mem_of_ne_of_mem (same ▸ (first other member).ne') (within.2 member)

theorem mem_keys_insert {name key : String} {value : α} {d : List (String × α)} :
    name ∈ keys (insert key value d) ↔ name = key ∨ name ∈ keys d := by
  induction d with
  | nil => simp [insert]
  | cons entry rest ih =>
      obtain ⟨other, old⟩ := entry
      unfold insert
      split
      · simp
      split
      · simp_all
      · simp only [keys_cons, List.mem_cons, ih]
        exact or_left_comm

theorem mem_of_mem_insert {entry : String × α} {key : String} {value : α}
    {d : List (String × α)} (member : entry ∈ insert key value d) :
    entry = (key, value) ∨ entry ∈ d := by
  induction d with
  | nil => simpa [insert] using member
  | cons first rest ih =>
      obtain ⟨other, old⟩ := first
      unfold insert at member
      split at member
      · simpa using member
      split at member
      · rcases List.mem_cons.mp member with same | later
        · exact .inl same
        · exact .inr (by simp [later])
      · rcases List.mem_cons.mp member with same | later
        · exact .inr (by simp [same])
        · exact (ih later).imp_right (List.mem_cons_of_mem _)

theorem sorted_insert {key : String} {value : α} {d : List (String × α)} (sorted : Sorted d) :
    Sorted (insert key value d) := by
  induction d with
  | nil => simp [insert, Sorted]
  | cons entry rest ih =>
      obtain ⟨other, old⟩ := entry
      obtain ⟨least, restSorted⟩ := sorted_cons.mp sorted
      unfold insert
      split
      · rename_i less
        refine sorted_cons.mpr ⟨?_, sorted⟩
        intro name member
        rcases List.mem_cons.mp member with same | later
        · simpa [same] using less
        · exact less.trans (least name later)
      split
      · rename_i equal
        exact sorted_cons.mpr ⟨by simpa [equal] using least, restSorted⟩
      · rename_i notLess different
        refine sorted_cons.mpr ⟨?_, ih restSorted⟩
        intro name member
        rcases mem_keys_insert.mp member with same | later
        · rw [same]
          exact lt_of_le_of_ne (le_of_not_gt notLess) (Ne.symm different)
        · exact least name later

theorem get?_insert {name key : String} {value : α} {d : List (String × α)} :
    get? (insert key value d) name = if name = key then some value else get? d name := by
  induction d with
  | nil => simp [insert, get?_cons]
  | cons entry rest ih =>
      obtain ⟨other, old⟩ := entry
      unfold insert
      split
      · rw [get?_cons]
      split
      · simp_all [get?_cons]
      · rename_i different
        rw [get?_cons, get?_cons, ih]
        by_cases equal : name = other
        · simp [equal, Ne.symm different]
        · simp [equal]

theorem length_insert_le (key : String) (value : α) (d : List (String × α)) :
    (insert key value d).length ≤ d.length + 1 := by
  induction d with
  | nil => simp [insert]
  | cons entry rest ih =>
      obtain ⟨name, old⟩ := entry
      unfold insert
      split
      · simp
      split
      · simp
      · simpa using ih

/-- A name behind all others goes to the end. -/
theorem insert_of_greatest {key : String} {value : α} {d : List (String × α)}
    (greatest : ∀ name ∈ keys d, name < key) : insert key value d = d ++ [(key, value)] := by
  induction d with
  | nil => rfl
  | cons entry rest ih =>
      obtain ⟨other, old⟩ := entry
      have less : other < key := greatest other (by simp)
      rw [insert, if_neg (not_lt_of_gt less), if_neg (ne_of_gt less),
        ih (fun name member => greatest name (by simp [member])), List.cons_append]

theorem get?_append (first second : List (String × α)) (name : String) :
    get? (first ++ second) name = (get? first name).or (get? second name) :=
  List.lookup_append

/-- Of two pairs with one name the later counts. -/
theorem get?_foldl_insert (pairs d : List (String × α)) (name : String) :
    get? (pairs.foldl (fun d pair => insert pair.1 pair.2 d) d) name =
      (get? pairs.reverse name).or (get? d name) := by
  induction pairs generalizing d with
  | nil => simp
  | cons pair rest ih =>
      rw [List.foldl_cons, ih, get?_insert, List.reverse_cons, get?_append, get?_cons, get?_nil]
      by_cases same : name = pair.1 <;> simp [same]

theorem mem_keys_foldl_insert {pairs d : List (String × α)} {name : String} :
    name ∈ keys (pairs.foldl (fun d pair => insert pair.1 pair.2 d) d) ↔
      name ∈ keys pairs ∨ name ∈ keys d := by
  induction pairs generalizing d with
  | nil => simp
  | cons pair rest ih =>
      rw [List.foldl_cons, ih, mem_keys_insert, keys_cons, List.mem_cons]
      tauto

theorem sorted_foldl_insert {pairs d : List (String × α)} (sorted : Sorted d) :
    Sorted (pairs.foldl (fun d pair => insert pair.1 pair.2 d) d) := by
  induction pairs generalizing d with
  | nil => exact sorted
  | cons pair rest ih => exact ih (sorted_insert sorted)

theorem get?_ofList_reverse (pairs : List (String × α)) (name : String) :
    get? (ofList pairs) name = get? pairs.reverse name := by
  rw [ofList, get?_foldl_insert, get?_nil, Option.or_none]

/-- Under a name stands the value of the last pair with it. -/
theorem get?_ofList_eq_some_iff_last {pairs : List (String × α)} {name : String} {value : α} :
    get? (ofList pairs) name = some value ↔
      ∃ before after, pairs = before ++ (name, value) :: after ∧
        ∀ later ∈ after, later.1 ≠ name := by
  rw [get?_ofList_reverse, get?, List.lookup_eq_some_iff]
  constructor
  · rintro ⟨first, second, split, absent⟩
    refine ⟨second.reverse, first.reverse, ?_, fun later member => ?_⟩
    · rw [← List.reverse_reverse pairs, split]
      simp
    · exact (bne_iff_ne.mp (absent later (List.mem_reverse.mp member))).symm
  · rintro ⟨before, after, rfl, absent⟩
    refine ⟨after.reverse, before.reverse, by simp, fun later member => ?_⟩
    exact bne_iff_ne.mpr (absent later (List.mem_reverse.mp member)).symm

/-- Pairs give one name one value. -/
def Agree (pairs : List (String × α)) : Prop :=
  ∀ pair ∈ pairs, ∀ other ∈ pairs, pair.1 = other.1 → pair.2 = other.2

/-- Where pairs agree, all of them are found. -/
theorem get?_ofList_eq_some_iff {pairs : List (String × α)} (agree : Agree pairs) {name : String}
    {value : α} : get? (ofList pairs) name = some value ↔ (name, value) ∈ pairs := by
  rw [get?_ofList_reverse]
  constructor
  · intro found
    exact List.mem_reverse.mp (mem_of_get? found)
  · intro member
    have named : name ∈ keys pairs.reverse :=
      mem_keys_of_mem (List.mem_reverse.mpr member : (name, value) ∈ pairs.reverse)
    obtain ⟨other, found⟩ := Option.isSome_iff_exists.mp (contains_iff.mpr named)
    have inside : (name, other) ∈ pairs := List.mem_reverse.mp (mem_of_get? found)
    have same : other = value := agree (name, other) inside (name, value) member rfl
    exact same ▸ found

theorem agree_of_nodup {pairs : List (String × α)} (distinct : (keys pairs).Nodup) :
    Agree pairs := by
  rintro ⟨name, value⟩ member ⟨other, also⟩ inside same
  obtain rfl : name = other := same
  rw [← get?_eq_some_iff distinct] at member inside
  exact Option.some.inj (member.symm.trans inside)

theorem get?_ofList {pairs : List (String × α)} (distinct : (keys pairs).Nodup) (name : String) :
    get? (ofList pairs) name = get? pairs name := by
  ext value
  rw [get?_ofList_eq_some_iff (agree_of_nodup distinct), get?_eq_some_iff distinct]

theorem mem_keys_ofList {pairs : List (String × α)} {name : String} :
    name ∈ keys (ofList pairs) ↔ name ∈ keys pairs := by
  rw [ofList, mem_keys_foldl_insert, keys_nil, List.mem_nil_iff, or_false]

theorem sorted_ofList (pairs : List (String × α)) : Sorted (ofList pairs) :=
  sorted_foldl_insert List.Pairwise.nil

theorem perm_ofList {pairs : List (String × α)} (distinct : (keys pairs).Nodup) :
    (ofList pairs).Perm pairs := by
  have sorted : (keys (ofList pairs)).Nodup := (sorted_ofList pairs).nodup
  rw [List.perm_ext_iff_of_nodup (.of_map _ sorted) (.of_map _ distinct)]
  rintro ⟨name, value⟩
  rw [← get?_eq_some_iff sorted, get?_ofList distinct, get?_eq_some_iff distinct]

theorem mem_of_mem_ofList {pairs : List (String × α)} {entry : String × α}
    (member : entry ∈ ofList pairs) : entry ∈ pairs := by
  have found := (get?_eq_some_iff (sorted_ofList pairs).nodup).mpr member
  rw [get?_ofList_reverse] at found
  exact List.mem_reverse.mp (mem_of_get? found)

theorem length_ofList_le (pairs : List (String × α)) : (ofList pairs).length ≤ pairs.length := by
  have general (rest before : List (String × α)) :
      (rest.foldl (fun d pair => insert pair.1 pair.2 d) before).length ≤
        before.length + rest.length := by
    induction rest generalizing before with
    | nil => exact Nat.le_refl _
    | cons pair rest ih =>
        have one := length_insert_le pair.1 pair.2 before
        have others := ih (insert pair.1 pair.2 before)
        rw [List.foldl_cons, List.length_cons]
        omega
  simpa [ofList] using general pairs []

/-- Where pairs agree, their order does not matter. -/
theorem ofList_perm {pairs others : List (String × α)} (order : pairs.Perm others)
    (agree : Agree pairs) : ofList pairs = ofList others := by
  have also : Agree others := fun pair member other inside =>
    agree pair (order.mem_iff.mpr member) other (order.mem_iff.mpr inside)
  have names : ∀ name, name ∈ keys (ofList pairs) ↔ name ∈ keys (ofList others) := by
    intro name
    rw [mem_keys_ofList, mem_keys_ofList]
    exact (order.map Prod.fst).mem_iff
  refine ext_of_keys (sorted_ofList pairs).nodup
    (keys_eq_of_mem (sorted_ofList pairs) (sorted_ofList others) names) fun name _ => ?_
  ext value
  rw [get?_ofList_eq_some_iff agree, get?_ofList_eq_some_iff also, order.mem_iff]

/-- A sorted dictionary is made of its own entries. -/
theorem ofList_of_sorted {d : List (String × α)} (sorted : Sorted d) : ofList d = d := by
  have general (before rest : List (String × α)) (ascend : Sorted (before ++ rest)) :
      rest.foldl (fun d pair => insert pair.1 pair.2 d) before = before ++ rest := by
    induction rest generalizing before with
    | nil => simp
    | cons pair rest ih =>
        have greatest : ∀ name ∈ keys before, name < pair.1 := by
          rw [Sorted, keys_append, List.pairwise_append] at ascend
          exact fun name member => ascend.2.2 name member pair.1 (by simp)
        rw [List.foldl_cons, insert_of_greatest greatest, ih]
        · simp
        · simpa using ascend
  exact general [] d sorted

end ScriptHost.Dict
