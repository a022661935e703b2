import Mathlib.Tactic.FinCases
import ScriptHost.Proofs.Engine.Cross
import ScriptHost.Proofs.Engine.Normal

set_option autoImplicit false

namespace ScriptHost

namespace Value

/-- The type of what is not known. -/
def unknown? : Value → Option Ty
  | unknown ty => some ty
  | _ => none

/-- The type of the first part that is not known, in the order of items and names. -/
def firstUnknown? (value : Value) : Option Ty := value.parts.findSome? unknown?

theorem findSome?_flatMap_parts (items : List Value) :
    (items.flatMap parts).findSome? unknown? = items.findSome? firstUnknown? := by
  induction items with
  | nil => rfl
  | cons item rest ih =>
      have first : item.parts.findSome? unknown? = item.firstUnknown? := rfl
      rw [List.flatMap_cons, List.findSome?_append, ih, List.findSome?_cons, first]
      cases item.firstUnknown? <;> rfl

theorem firstUnknown?_of_items? {value : Value} {items : List Value}
    (sequence : value.items? = some items) :
    value.firstUnknown? = items.findSome? firstUnknown? := by
  rw [firstUnknown?, parts_eq, children_of_items? sequence, ← findSome?_flatMap_parts]
  cases value <;> cases sequence <;> rfl

theorem firstUnknown?_of_entries? {value : Value} {entries : List (String × Value)}
    (collection : value.entries? = some entries) :
    value.firstUnknown? = entries.findSome? fun entry => entry.2.firstUnknown? := by
  have values : (entries.map Prod.snd).findSome? firstUnknown? =
      entries.findSome? fun entry => entry.2.firstUnknown? := List.findSome?_map
  rw [← values, firstUnknown?, parts_eq, children_of_entries? collection,
    ← findSome?_flatMap_parts]
  cases value <;> cases collection <;> rfl

theorem firstUnknown?_eq_none_iff {value : Value} : value.firstUnknown? = none ↔ value.Known := by
  rw [firstUnknown?, List.findSome?_eq_none_iff]
  refine forall₂_congr fun part _ => ?_
  cases part <;> simp [unknown?]

end Value

namespace Engine

theorem exists_lower_of_firstUnknown? {value : Value} (none : value.firstUnknown? = none) :
    ∃ tree, lower value = .ok tree := by
  obtain ⟨tree, lowered, -⟩ := exists_lower (Value.firstUnknown?_eq_none_iff.mp none)
  exact ⟨tree, lowered⟩

/-- Items before the first one that is refused have trees, and those behind it are not looked at. -/
theorem lowerItems_of_firstUnknown? {items : List Value} {ty : Ty}
    (refused : ∀ item ∈ items, item.firstUnknown? = some ty →
      lower item = .error (.unsupportedType ty))
    (first : items.findSome? Value.firstUnknown? = some ty) (position : Nat) :
    lowerItems position items = .error (.unsupportedType ty) := by
  induction items generalizing position with
  | nil => cases first
  | cons item rest ih =>
      rw [List.forall_mem_cons] at refused
      rw [List.findSome?_cons] at first
      cases found : item.firstUnknown? with
      | some other =>
          rw [found] at first
          cases first
          rw [lowerItems, refused.1 found]
      | none =>
          rw [found] at first
          obtain ⟨tree, lowered⟩ := exists_lower_of_firstUnknown? found
          rw [lowerItems, lowered, ih refused.2 first]
          rfl

theorem lowerEntries_of_firstUnknown? {entries : List (String × Value)} {ty : Ty}
    (refused : ∀ entry ∈ entries, entry.2.firstUnknown? = some ty →
      lower entry.2 = .error (.unsupportedType ty))
    (first : entries.findSome? (fun entry => entry.2.firstUnknown?) = some ty) :
    lowerEntries entries = .error (.unsupportedType ty) := by
  induction entries with
  | nil => cases first
  | cons entry rest ih =>
      rw [List.forall_mem_cons] at refused
      rw [List.findSome?_cons] at first
      cases found : entry.2.firstUnknown? with
      | some other =>
          rw [found] at first
          cases first
          rw [lowerEntries, refused.1 found]
      | none =>
          rw [found] at first
          obtain ⟨tree, lowered⟩ := exists_lower_of_firstUnknown? found
          rw [lowerEntries, lowered, ih refused.2 first]
          rfl

theorem lower_of_firstUnknown? {value : Value} {ty : Ty} (first : value.firstUnknown? = some ty) :
    lower value = .error (.unsupportedType ty) := by
  induction value with
  | list items ih | set items ih | tuple items ih =>
      rw [Value.firstUnknown?_of_items? rfl] at first
      rw [lower, lowerItems_of_firstUnknown? ih first]
      rfl
  | map entries ih | object entries ih =>
      rw [Value.firstUnknown?_of_entries? rfl] at first
      rw [lower, lowerEntries_of_firstUnknown? ih first]
      rfl
  | unknown known =>
      cases first
      rfl
  | _ => cases first

theorem lower_eq_error_iff {value : Value} {e : CallError} :
    lower value = .error e ↔ ∃ ty, value.firstUnknown? = some ty ∧ e = .unsupportedType ty := by
  cases first : value.firstUnknown? with
  | some ty => simp [lower_of_firstUnknown? first, eq_comm]
  | none =>
      obtain ⟨tree, lowered⟩ := exists_lower_of_firstUnknown? first
      simp [lowered]

/-- A value lowered and raised. -/
def direct (value : Value) : Except CallError Value := do raise (← lower value)

/-- Items under the texts of their positions are classified as what is left of a sequence. -/
theorem classify_positions_eq (items : List Value) :
    classify (Dict.ofList ((positions items).map fun spot => (spot.1.text, spot.2))) =
      sequence items := by
  by_cases empty : items = []
  · subst empty
    rfl
  · rw [classify_positions empty, sequence_of_ne_nil empty]

theorem direct_eq_ok {value result : Value} :
    direct value = .ok result ↔ ∃ tree, lower value = .ok tree ∧ raise tree = .ok result := by
  unfold direct
  cases lower value with
  | error e => simp [bind, Except.bind]
  | ok tree => simp [bind, Except.bind]

/-- A container comes out as the dictionary of what comes out of its children. -/
theorem direct_of_spots? {value : Value} {spots : List (Key × Value)} {result : Value → Value}
    (container : spots? value = some spots)
    (inside : ∀ child ∈ value.children, direct child = .ok (result child)) :
    direct value =
      .ok (classify (Dict.ofList (spots.map fun spot => (spot.1.text, result spot.2)))) := by
  choose! tree lowered raised using fun child member => direct_eq_ok.mp (inside child member)
  have native : ∀ spot ∈ spots, ∀ typeName, spot.1 ≠ .foreign typeName :=
    fun spot member => (settled_of_spots? container member).2.1
  have each : ∀ spot ∈ spots, raise (tree spot.2) = .ok (result spot.2) :=
    fun spot member => raised spot.2 (mem_children_of_spots? container member)
  refine direct_eq_ok.mpr ⟨_, lower_of_spots? container lowered, ?_⟩
  rw [raise, raiseEntries_of_raise native each]
  rfl

theorem direct_of_items? {value : Value} {items : List Value} {result : Value → Value}
    (items? : value.items? = some items)
    (inside : ∀ item ∈ items, direct item = .ok (result item)) :
    direct value = .ok (sequence (items.map result)) := by
  have moved : (positions items).map (fun spot => (spot.1.text, result spot.2)) =
      (positions (items.map result)).map fun spot => (spot.1.text, spot.2) := by
    rw [positions, positions, List.zipIdx_map, List.map_map, List.map_map, List.map_map]
    rfl
  rw [← Value.children_of_items? items?] at inside
  rw [direct_of_spots? (spots?_of_items? items?) inside, moved, classify_positions_eq]

theorem spots?_of_entries? {value : Value} {entries : List (String × Value)}
    (collection : value.entries? = some entries) : spots? value = some (names entries) := by
  cases value <;> cases collection <;> rfl

theorem direct_of_entries? {value : Value} {entries : List (String × Value)}
    {result : Value → Value} (entries? : value.entries? = some entries)
    (sorted : Dict.Sorted entries)
    (inside : ∀ entry ∈ entries, direct entry.2 = .ok (result entry.2)) :
    direct value = .ok (collection (entries.map fun entry => (entry.1, result entry.2))) := by
  have named : (names entries).map (fun spot => (spot.1.text, result spot.2)) =
      entries.map fun entry => (entry.1, result entry.2) := by
    rw [names, List.map_map]
    rfl
  have children : ∀ child ∈ value.children, direct child = .ok (result child) := by
    rw [Value.children_of_entries? entries?]
    exact List.forall_mem_map.mpr inside
  rw [direct_of_spots? (spots?_of_entries? entries?) children, named,
    Dict.ofList_of_sorted ((Dict.sorted_map result).mpr sorted), classify_eq_collection]

/-- What is known comes out in its normal form. -/
theorem direct_eq_normal {value : Value} (ordered : value.Ordered) (known : value.Known) :
    direct value = .ok (normal value) := by
  induction value using Value.childrenInduction with
  | step value ih =>
      obtain ⟨named, orderedInside⟩ := Value.ordered_iff.mp ordered
      obtain ⟨known, knownInside⟩ := Value.known_iff.mp known
      have inside : ∀ child ∈ value.children, direct child = .ok (normal child) :=
        fun child member => ih child member (orderedInside child member) (knownInside child member)
      cases value with
      | list items | set items | tuple items =>
          rw [normal_of_items? rfl]
          exact direct_of_items? rfl inside
      | map entries | object entries =>
          rw [normal_of_entries? rfl]
          exact direct_of_entries? rfl named (List.forall_mem_map.mp inside)
      | unknown ty => exact absurd rfl (known ty)
      | _ => rfl

/-- Exactly a value in which something is not known cannot be lowered; the first such part is the
reason. Any other value comes out in its normal form and does not change any more; it is the same as
before exactly if its containers are lists with items and objects not named like lists. -/
theorem direct_normal {value : Value} (ordered : value.Ordered) :
    ((∃ e, lower value = .error e) ↔ ∃ ty, .unknown ty ∈ value.parts) ∧
      (∀ e, lower value = .error e →
        ∃ ty, value.firstUnknown? = some ty ∧ e = .unsupportedType ty) ∧
      ((∀ ty, .unknown ty ∉ value.parts) →
        direct value = .ok (normal value) ∧ direct (normal value) = .ok (normal value) ∧
          (normal value = value ↔ ∀ part ∈ value.parts, Stays part) ∧
          ((normal value).equal value = true ↔
            (∀ part ∈ value.parts, Stays part) ∧ ¬ value.HasNaN)) := by
  have known_iff : (∀ ty, .unknown ty ∉ value.parts) ↔ value.Known :=
    ⟨fun absent part member ty same => absent ty (same ▸ member),
      fun known ty member => known _ member ty rfl⟩
  refine ⟨?_, fun e failed => lower_eq_error_iff.mp failed, fun absent => ?_⟩
  · rw [← not_iff_not, not_exists, not_exists, known_iff, ← Value.firstUnknown?_eq_none_iff]
    simp only [lower_eq_error_iff]
    cases value.firstUnknown? <;> simp
  · have known := known_iff.mp absent
    have again := direct_eq_normal (ordered_normal ordered) (known_normal known)
    rw [normal_normal] at again
    exact ⟨direct_eq_normal ordered known, again, normal_eq_self_iff, equal_normal_iff⟩

/-- A map named like a list, with an empty tuple in it. -/
theorem direct_normal_map :
    direct (.map [("0", .tuple []), ("1", .null)]) = .ok (.list [.object [], .null]) := by
  have ordered : (Value.map [("0", .tuple []), ("1", .null)]).Ordered := by
    intro part member
    fin_cases member
    · exact List.pairwise_pair.mpr (by decide)
    all_goals trivial
  have known : ∀ ty, .unknown ty ∉ (Value.map [("0", .tuple []), ("1", .null)]).parts := by
    simp [Value.parts, Value.partsOfEntries, Value.partsOfItems]
  exact ((direct_normal ordered).2.2 known).1

end Engine

end ScriptHost
