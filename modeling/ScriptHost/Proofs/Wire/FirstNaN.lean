import ScriptHost.Proofs.Wire.Conform
import ScriptHost.Wire

set_option autoImplicit false

namespace ScriptHost

namespace Value

mutual

/-- The ways to the numbers inside a value that are NaN, in the order of items and entries. -/
def nanPaths : Value → List (List Wire.Step)
  | number x => if x.isNaN then [[]] else []
  | list items | set items | tuple items => nanPathsOfItems 0 items
  | map entries | object entries => nanPathsOfEntries entries
  | _ => []

def nanPathsOfItems (position : Nat) : List Value → List (List Wire.Step)
  | [] => []
  | item :: rest =>
      item.nanPaths.map (.index position :: ·) ++ nanPathsOfItems (position + 1) rest

def nanPathsOfEntries : List (String × Value) → List (List Wire.Step)
  | [] => []
  | (name, value) :: rest => value.nanPaths.map (.name name :: ·) ++ nanPathsOfEntries rest

end

theorem nanPathsOfItems_eq_nil_iff {position : Nat} {items : List Value} :
    nanPathsOfItems position items = [] ↔ ∀ item ∈ items, item.nanPaths = [] := by
  induction items generalizing position with
  | nil => simp [nanPathsOfItems]
  | cons item rest ih => simp [nanPathsOfItems, ih]

theorem nanPathsOfEntries_eq_nil_iff {entries : List (String × Value)} :
    nanPathsOfEntries entries = [] ↔ ∀ entry ∈ entries, entry.2.nanPaths = [] := by
  induction entries with
  | nil => simp [nanPathsOfEntries]
  | cons entry rest ih => simp [nanPathsOfEntries, ih]

theorem nanPaths_eq_nil_iff {value : Value} : value.nanPaths = [] ↔ ¬ value.HasNaN := by
  induction value with
  | number x =>
      rw [not_hasNaN_iff]
      simp [nanPaths, children]
  | list items ih | set items ih | tuple items ih =>
      rw [nanPaths, nanPathsOfItems_eq_nil_iff, not_hasNaN_iff]
      simp only [reduceCtorEq, false_implies, implies_true, true_and, children]
      exact forall₂_congr ih
  | map entries ih | object entries ih =>
      rw [nanPaths, nanPathsOfEntries_eq_nil_iff, not_hasNaN_iff]
      simp only [reduceCtorEq, false_implies, implies_true, true_and, children, List.forall_mem_map]
      exact forall₂_congr ih
  | _ => exact iff_of_true rfl (not_hasNaN_of_scalar rfl (by simp))

theorem nanPaths_of_items? {value : Value} {items : List Value}
    (sequence : value.items? = some items) : value.nanPaths = nanPathsOfItems 0 items := by
  cases value <;> cases sequence <;> rfl

theorem nanPaths_of_entries? {value : Value} {entries : List (String × Value)}
    (collection : value.entries? = some entries) :
    value.nanPaths = nanPathsOfEntries entries := by
  cases value <;> cases collection <;> rfl

/-- Names without an entry lead nowhere, and the others stand in the same order. -/
theorem nanPathsOfEntries_entry {names : List String} {entries : List (String × Value)}
    (ascend : names.Pairwise (· < ·)) (sorted : Dict.Sorted entries)
    (within : Dict.keys entries ⊆ names) :
    nanPathsOfEntries (names.map fun name => (name, entry entries name)) =
      nanPathsOfEntries entries := by
  induction names generalizing entries with
  | nil => rw [List.map_eq_nil_iff.mp (List.subset_nil.mp within), List.map_nil]
  | cons name names ih =>
      obtain ⟨below, ascends⟩ := List.pairwise_cons.mp ascend
      rw [List.map_cons, nanPathsOfEntries]
      by_cases first : name ∈ Dict.keys entries
      · cases entries with
        | nil => cases first
        | cons head rest =>
            obtain ⟨key, value⟩ := head
            obtain ⟨rfl, behind⟩ := Dict.eq_head_of_least below sorted within first
            have others : names.map (fun name => (name, entry ((key, value) :: rest) name)) =
                names.map fun name => (name, entry rest name) := by
              refine List.map_congr_left fun name member => ?_
              rw [entry, entry, Dict.get?_cons, if_neg (below name member).ne']
            rw [others, ih ascends (Dict.sorted_cons.mp sorted).2 behind, entry, Dict.get?_cons,
              if_pos rfl, Option.getD_some, nanPathsOfEntries]
      · have absent : entry entries name = null := by
          rw [entry, Dict.get?_eq_none_iff.mpr first, Option.getD_none]
        have others : Dict.keys entries ⊆ names := fun other member =>
          List.mem_of_ne_of_mem (ne_of_mem_of_not_mem member first) (within member)
        rw [absent, ih ascends sorted others]
        rfl

end Value

namespace Wire

variable {ε α β : Type} {cause : ε}

/-- What comes out where the parts at some ways are refused for one cause: the first is reported. -/
inductive FailsAt (cause : ε) : List (List Step) → Except (Located ε) α → Prop
  | never (result : α) : FailsAt cause [] (.ok result)
  | first (path : List Step) (others : List (List Step)) :
      FailsAt cause (path :: others) (.error ⟨path, cause⟩)

namespace FailsAt

variable {paths others : List (List Step)} {outcome : Except (Located ε) α}

theorem map (f : α → β) (fails : FailsAt cause paths outcome) :
    FailsAt cause paths (outcome.map f) := by
  cases fails with
  | never result => exact .never (f result)
  | first path others => exact .first path others

theorem under (step : Step) (fails : FailsAt cause paths outcome) :
    FailsAt cause (paths.map (step :: ·)) (under step outcome) := by
  cases fails with
  | never result => exact .never result
  | first path others => exact .first (step :: path) (others.map (step :: ·))

theorem cons {tail : Except (Located ε) (List β)} {f : α → β}
    (here : FailsAt cause paths outcome) (behind : FailsAt cause others tail) :
    FailsAt cause (paths ++ others) (match outcome with
      | .error failure => .error failure
      | .ok result => tail.map (f result :: ·)) := by
  cases here with
  | never result => exact behind.map _
  | first path more => exact .first path (more ++ others)

/-- Something fails exactly if there is a way to what is refused. -/
theorem exists_error_iff (fails : FailsAt cause paths outcome) :
    (∃ e, outcome = .error e) ↔ paths ≠ [] := by
  cases fails <;> simp

theorem head?_of_error {e : Located ε} (fails : FailsAt cause paths outcome)
    (failed : outcome = .error e) : paths.head? = some e.path ∧ e.cause = cause := by
  cases fails with
  | never => cases failed
  | first path others =>
      cases failed
      exact ⟨rfl, rfl⟩

end FailsAt

namespace Binary

theorem failsAt_items {items : List Value} {types : List Ty} (position : Nat)
    (lengths : types.length = items.length)
    (each : ∀ place ∈ items.zip types,
      FailsAt .notANumber place.1.nanPaths (document place.1 place.2)) :
    FailsAt .notANumber (Value.nanPathsOfItems position items)
      (collect position (List.zipWith document items types)) := by
  induction items generalizing types position with
  | nil => exact .never []
  | cons item rest ih =>
      cases types with
      | nil => cases lengths
      | cons type types =>
          rw [List.zip_cons_cons, List.forall_mem_cons] at each
          rw [List.length_cons, List.length_cons, Nat.add_right_cancel_iff] at lengths
          exact (each.1.under (.index position)).cons (ih _ lengths each.2)

theorem failsAt_entries {entries : List (String × Value)} {fields : List (String × Ty)}
    (each : ∀ field ∈ fields, FailsAt .notANumber (Value.entry entries field.1).nanPaths
      (document (Value.entry entries field.1) field.2)) :
    FailsAt .notANumber
      (Value.nanPathsOfEntries
        ((Dict.keys fields).map fun name => (name, Value.entry entries name)))
      (collectNamed (fields.map fun field =>
        (field.1, document (Value.entry entries field.1) field.2))) := by
  induction fields with
  | nil => exact .never []
  | cons field rest ih =>
      obtain ⟨name, ty⟩ := field
      rw [List.forall_mem_cons] at each
      exact (each.1.under (.name name)).cons (ih each.2)

/-- What fits its type is written whole or refused for its first NaN. -/
theorem failsAt_document {value : Value} {ty : Ty} (fits : Fits value ty)
    (ordered : value.Ordered) (names : ty.Ordered) :
    FailsAt .notANumber value.nanPaths (document value ty) := by
  induction fits with
  | null ty =>
      rw [document_null]
      exact .never _
  | unknown known ty =>
      cases ty with
      | dynamic => cases known <;> exact .never _
      | _ => exact .never _
  | own typed _ ih =>
      have inside := ih ordered (Value.ordered_ty ordered)
      rw [document_of_typed _ typed] at inside
      -- the type that comes with the value is no step of the way
      rw [document_dynamic_of_typed typed]
      exact inside.map _
  | bool b => exact .never _
  | string text => exact .never _
  | number x =>
      rw [Value.nanPaths, document_of_typed _ (by simp), write, if_pos rfl, writeNumber]
      cases x.isNaN with
      | true => exact .first [] []
      | false => cases x.integral <;> exact .never _
  | items sequence places _ ih =>
      have inside := (Value.ordered_iff.mp ordered).2
      rw [Value.children_of_items? sequence] at inside
      have each := failsAt_items 0 (Ty.length_of_itemTypes? places)
        fun place member => ih place member (inside _ (List.of_mem_zip member).1)
          (Ty.ordered_of_itemTypes? names places _ (List.of_mem_zip member).2)
      rw [Value.nanPaths_of_items? sequence,
        document_of_typed _ (Ty.ne_dynamic_of_itemTypes? places),
        write_of_items? _ sequence, writeItems_of_places places]
      exact each.map _
  | entries collection places _ ih =>
      have inside := (Value.ordered_iff.mp ordered).2
      rw [Value.children_of_entries? collection, List.forall_mem_map] at inside
      have sorted := Value.sorted_of_entries? collection ordered
      have each := failsAt_entries fun field member =>
        ih field member (Value.forall_entry Value.Ordered Value.ordered_null inside field.1)
          (Ty.ordered_of_entryTypes? names places field member)
      -- writing goes by the names of the type, of which the value may lack some
      have ascend := Ty.sorted_of_entryTypes? names sorted places
      rw [Value.nanPathsOfEntries_entry ascend sorted (Ty.subset_of_entryTypes? places)] at each
      rw [Value.nanPaths_of_entries? collection,
        document_of_typed _ (Ty.ne_dynamic_of_entryTypes? places),
        write_of_entries? _ collection, writeEntries_of_places document_null sorted places]
      exact each.map _

end Binary

theorem encode_eq_error_iff {value : Value} {ty : Ty} {e : Error} : encode value ty = .error e ↔
    ∃ failure, Binary.document value ty = .error failure ∧ Error.ofEncode .binary failure = e := by
  rw [encode, encodeBinary, Binary.encode]
  cases Binary.document value ty <;> simp [Except.map, Except.mapError]

end Wire

end ScriptHost
