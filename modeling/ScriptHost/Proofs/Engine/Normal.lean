import ScriptHost.Proofs.Engine.Classify
import ScriptHost.Proofs.Value.Equal

set_option autoImplicit false

namespace ScriptHost.Engine

/-- Some names are the numbers from a first one on, in any order. -/
def Counts (first : Nat) (names : List String) : Prop :=
  names ≠ [] ∧ names.Perm (indexNames first names.length)

instance (first : Nat) (names : List String) : Decidable (Counts first names) :=
  inferInstanceAs (Decidable (_ ∧ _))

/-- Items as they come out: nothing is left of an empty sequence. -/
def sequence : List Value → Value
  | [] => .object []
  | items => .list items

/-- The values under the numbers from a first one on. -/
def indexed (first : Nat) (entries : List (String × Value)) : List Value :=
  (indexNames first entries.length).filterMap (Dict.get? entries)

/-- Entries as they come out: a list if their names count from zero or from one. -/
def collection (entries : List (String × Value)) : Value :=
  if Counts 0 (Dict.keys entries) then .list (indexed 0 entries)
  else if Counts 1 (Dict.keys entries) then .list (indexed 1 entries)
  else .object entries

mutual

/-- A value as it comes out. -/
def normal : Value → Value
  | .list items | .set items | .tuple items => sequence (normalItems items)
  | .map entries | .object entries => collection (normalEntries entries)
  | scalar => scalar

def normalItems : List Value → List Value
  | [] => []
  | item :: rest => normal item :: normalItems rest

def normalEntries : List (String × Value) → List (String × Value)
  | [] => []
  | (name, value) :: rest => (name, normal value) :: normalEntries rest

end

/-- A container stays as it is: a list that is not empty, or an object not named like a list. -/
def Stays : Value → Prop
  | .list items => items ≠ []
  | .object entries => ¬ Counts 0 (Dict.keys entries) ∧ ¬ Counts 1 (Dict.keys entries)
  | .set _ | .tuple _ | .map _ => False
  | _ => True

theorem normalItems_eq (items : List Value) : normalItems items = items.map normal :=
  eq_map_of_cons rfl (fun _ _ => rfl) items

theorem normalEntries_eq (entries : List (String × Value)) :
    normalEntries entries = entries.map fun entry => (entry.1, normal entry.2) :=
  eq_map_of_cons rfl (fun _ _ => rfl) entries

theorem normal_of_items? {value : Value} {items : List Value} (items? : value.items? = some items) :
    normal value = sequence (items.map normal) := by
  rw [← normalItems_eq]
  cases value <;> cases items? <;> rfl

theorem normal_of_entries? {value : Value} {entries : List (String × Value)}
    (entries? : value.entries? = some entries) :
    normal value = collection (entries.map fun entry => (entry.1, normal entry.2)) := by
  rw [← normalEntries_eq]
  cases value <;> cases entries? <;> rfl

theorem sequence_of_ne_nil {items : List Value} (nonempty : items ≠ []) :
    sequence items = .list items := by
  cases items with
  | nil => exact absurd rfl nonempty
  | cons item rest => rfl

theorem Runs.counts {first : Nat} {d : List (String × Value)} {items : List Value}
    (runs : Runs first d items) : Counts first (Dict.keys d) := by
  have length : (Dict.keys d).length = d.length := List.length_map _
  refine ⟨?_, ?_⟩
  · intro empty
    exact runs.nonempty (List.map_eq_nil_iff.mp empty)
  · rw [length]
    exact runs.perm.symm

theorem Runs.indexed_eq {first : Nat} {d : List (String × Value)} {items : List Value}
    (runs : Runs first d items) : indexed first d = items := by
  have found := runs.each
  unfold indexed
  clear runs
  generalize indexNames first d.length = names at found
  induction found with
  | nil => rfl
  | cons here _ ih => rw [List.filterMap_cons, here, ih]

theorem exists_runs_of_counts {first : Nat} {d : List (String × Value)}
    (counts : Counts first (Dict.keys d)) : ∃ items, Runs first d items := by
  have length : (Dict.keys d).length = d.length := List.length_map _
  refine exists_runs ?_ fun name member => ?_
  · rintro rfl
    exact counts.1 rfl
  · rw [← length] at member
    exact counts.2.mem_iff.mpr member

/-- A dictionary is classified by how its names count. -/
theorem classify_eq_collection (d : List (String × Value)) : classify d = collection d := by
  have list_of_counts (first : Nat) (start : first ≤ 1) (counts : Counts first (Dict.keys d)) :
      classify d = .list (indexed first d) := by
    obtain ⟨items, runs⟩ := exists_runs_of_counts counts
    rw [classify_of_runs start runs, runs.indexed_eq]
  unfold collection
  split
  · exact list_of_counts 0 (Nat.zero_le 1) (by assumption)
  split
  · exact list_of_counts 1 (Nat.le_refl 1) (by assumption)
  · rename_i notZero notOne
    rcases classify_eq_object_or_runs d with object | ⟨first, start, items, runs, -⟩
    · exact object
    · have digit : first = 0 ∨ first = 1 := by omega
      rcases digit with rfl | rfl
      · exact absurd runs.counts notZero
      · exact absurd runs.counts notOne

/-- What stands right below a normal form is the normal form of a child. -/
theorem mem_children_normal {value child : Value} (member : child ∈ (normal value).children) :
    ∃ origin ∈ value.children, normal origin = child := by
  have of_items {items : List Value} (inside : child ∈ (sequence (items.map normal)).children) :
      ∃ origin ∈ items, normal origin = child := by
    cases items with
    | nil => cases inside
    | cons item rest => exact List.mem_map.mp inside
  have of_entries {entries : List (String × Value)}
      (inside : child ∈
        (collection (entries.map fun entry => (entry.1, normal entry.2))).children) :
      ∃ origin ∈ entries.map Prod.snd, normal origin = child := by
    have entry : ∃ name, (name, child) ∈ entries.map fun entry => (entry.1, normal entry.2) := by
      have of_indexed {first : Nat} (there : child ∈ indexed first
          (entries.map fun entry => (entry.1, normal entry.2))) :
          ∃ name, (name, child) ∈ entries.map fun entry => (entry.1, normal entry.2) := by
        obtain ⟨name, -, found⟩ := List.mem_filterMap.mp there
        exact ⟨name, Dict.mem_of_get? found⟩
      unfold collection at inside
      split at inside
      · exact of_indexed inside
      split at inside
      · exact of_indexed inside
      · obtain ⟨⟨name, value⟩, here, rfl⟩ := List.mem_map.mp inside
        exact ⟨name, here⟩
    obtain ⟨name, here⟩ := entry
    obtain ⟨origin, there, same⟩ := List.mem_map.mp here
    exact ⟨origin.2, List.mem_map_of_mem there, (Prod.ext_iff.mp same).2⟩
  cases value with
  | list items | set items | tuple items =>
      rw [normal_of_items? rfl] at member
      exact of_items member
  | map entries | object entries =>
      rw [normal_of_entries? rfl] at member
      exact of_entries member
  | _ => cases member

/-- What holds of each node of a normal form for its kind holds of all its parts. -/
theorem forall_mem_parts_normal {P : Value → Prop} {value : Value}
    (each : ∀ part ∈ value.parts, P (normal part)) : ∀ part ∈ (normal value).parts, P part := by
  induction value using Value.childrenInduction with
  | step value ih =>
      obtain ⟨here, inside⟩ := Value.forall_mem_parts.mp each
      refine Value.forall_mem_parts.mpr ⟨here, fun child member => ?_⟩
      obtain ⟨origin, below, rfl⟩ := mem_children_normal member
      exact ih origin below (inside origin below)

theorem stays_sequence (items : List Value) : Stays (sequence items) := by
  cases items with
  | nil => exact ⟨fun counts => counts.1 rfl, fun counts => counts.1 rfl⟩
  | cons item rest => exact List.cons_ne_nil item rest

theorem stays_collection (entries : List (String × Value)) : Stays (collection entries) := by
  have some_of_counts {first : Nat} (counts : Counts first (Dict.keys entries)) :
      Stays (.list (indexed first entries)) := by
    obtain ⟨items, runs⟩ := exists_runs_of_counts counts
    have length := runs.length
    have pos := runs.pos
    rw [runs.indexed_eq]
    exact List.ne_nil_of_length_pos (by omega)
  unfold collection
  split
  · exact some_of_counts (by assumption)
  split
  · exact some_of_counts (by assumption)
  · exact ⟨by assumption, by assumption⟩

theorem stays_normal (value : Value) : ∀ part ∈ (normal value).parts, Stays part := by
  refine forall_mem_parts_normal fun part _ => ?_
  cases part with
  | list items | set items | tuple items =>
      rw [normal_of_items? rfl]
      exact stays_sequence _
  | map entries | object entries =>
      rw [normal_of_entries? rfl]
      exact stays_collection _
  | _ => trivial

/-- A value of containers that stay is its own normal form. -/
theorem normal_of_stays {value : Value} (stays : ∀ part ∈ value.parts, Stays part) :
    normal value = value := by
  induction value with
  | list items ih =>
      obtain ⟨nonempty, inside⟩ := Value.forall_mem_parts.mp stays
      have same : items.map normal = items :=
        (List.map_congr_left fun item member => ih item member (inside item member)).trans
          (List.map_id items)
      rw [normal_of_items? rfl, same, sequence_of_ne_nil nonempty]
  | object entries ih =>
      obtain ⟨⟨notZero, notOne⟩, inside⟩ := Value.forall_mem_parts.mp stays
      have same : entries.map (fun entry => (entry.1, normal entry.2)) = entries := by
        refine (List.map_congr_left fun entry member => ?_).trans (List.map_id entries)
        exact congrArg (entry.1, ·)
          (ih entry member (inside entry.2 (List.mem_map_of_mem member)))
      rw [normal_of_entries? rfl, same, collection, if_neg notZero, if_neg notOne]
  | set items | tuple items | map items => exact absurd (Value.forall_mem_parts.mp stays).1 id
  | _ => rfl

theorem normal_eq_self_iff {value : Value} :
    normal value = value ↔ ∀ part ∈ value.parts, Stays part := by
  constructor
  · intro same
    rw [← same]
    exact stays_normal value
  · exact normal_of_stays

theorem normal_normal (value : Value) : normal (normal value) = normal value :=
  normal_of_stays (stays_normal value)

theorem known_normal {value : Value} (known : value.Known) : (normal value).Known := by
  refine forall_mem_parts_normal fun part member ty => ?_
  have known := known part member
  cases part with
  | list items | set items | tuple items =>
      rw [normal_of_items? rfl]
      cases items <;> simp [sequence]
  | map entries | object entries =>
      rw [normal_of_entries? rfl, collection]
      repeat' split
      all_goals simp
  | unknown other => exact known ty
  | _ => simp [normal]

theorem ordered_normal {value : Value} (ordered : value.Ordered) : (normal value).Ordered := by
  refine forall_mem_parts_normal fun part member => ?_
  have named := ordered part member
  cases part with
  | list items | set items | tuple items =>
      rw [normal_of_items? rfl]
      cases items with
      | nil => exact List.Pairwise.nil
      | cons item rest => trivial
  | map entries | object entries =>
      rw [normal_of_entries? rfl, collection]
      split
      · trivial
      split
      · trivial
      · exact (Dict.sorted_map normal).mpr named
  | unknown ty => exact named
  | _ => trivial

/-- What is equal to its normal form has containers that stay. -/
theorem stays_of_equal {value : Value} (equal : (normal value).equal value = true) :
    ∀ part ∈ value.parts, Stays part := by
  induction value with
  | list items ih =>
      rw [normal_of_items? rfl] at equal
      by_cases empty : items = []
      · subst empty
        cases equal
      · rw [sequence_of_ne_nil (by simpa using empty), Value.equal,
          Value.equalItems_iff, List.forall₂_map_left_iff, List.forall₂_same] at equal
        exact Value.forall_mem_parts.mpr
          ⟨empty, fun item member => ih item member (equal item member)⟩
  | object entries ih =>
      rw [normal_of_entries? rfl, collection] at equal
      split at equal
      · cases equal
      split at equal
      · cases equal
      · rename_i notZero notOne
        rw [Dict.keys_map fun entry => normal entry.2] at notZero notOne
        rw [Value.equal, Value.equalEntries_iff, List.forall₂_map_left_iff, List.forall₂_same]
          at equal
        refine Value.forall_mem_parts.mpr ⟨⟨notZero, notOne⟩, fun child member => ?_⟩
        obtain ⟨entry, here, rfl⟩ := List.mem_map.mp member
        exact ih entry here (equal entry here).2
  | set items | tuple items =>
      rw [normal_of_items? rfl] at equal
      cases items <;> cases equal
  | map entries =>
      rw [normal_of_entries? rfl, collection] at equal
      repeat' split at equal
      all_goals cases equal
  | _ => exact Value.forall_mem_parts.mpr ⟨trivial, List.forall_mem_nil _⟩

theorem equal_normal_iff {value : Value} : (normal value).equal value = true ↔
    (∀ part ∈ value.parts, Stays part) ∧ ¬ value.HasNaN := by
  constructor
  · intro equal
    have stays := stays_of_equal equal
    rw [normal_of_stays stays, Value.equal_self_iff] at equal
    exact ⟨stays, equal⟩
  · rintro ⟨stays, numbers⟩
    rw [normal_of_stays stays]
    exact Value.equal_self_iff.mpr numbers

end ScriptHost.Engine
