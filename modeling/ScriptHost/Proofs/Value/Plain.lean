import ScriptHost.Proofs.Json.Canonical
import ScriptHost.Proofs.Value.Equal
import ScriptHost.Value.Plain

set_option autoImplicit false

namespace ScriptHost

namespace Binary64

theorem equal_comm (x y : Binary64) : x.equal y = y.equal x := by
  rw [equal, equal, Bool.and_comm (!x.isNaN), BEq.comm]

end Binary64

namespace Value

mutual

/-- What plain JSON can tell of a value: every sequence is a tuple, every collection an object, and
what is unknown or not finite is null. -/
def plain : Value → Value
  | null | unknown _ => null
  | bool value => bool value
  | number x => if x.isFinite then number x else null
  | string value => string value
  | list items | set items | tuple items => tuple (plainItems items)
  | map entries | object entries => object (plainEntries entries)

def plainItems : List Value → List Value
  | [] => []
  | item :: rest => item.plain :: plainItems rest

def plainEntries : List (String × Value) → List (String × Value)
  | [] => []
  | (key, value) :: rest => (key, value.plain) :: plainEntries rest

end

theorem plainItems_eq (items : List Value) : plainItems items = items.map plain :=
  eq_map_of_cons rfl (fun _ _ => rfl) items

theorem plainEntries_eq (entries : List (String × Value)) :
    plainEntries entries = entries.map fun entry => (entry.1, entry.2.plain) :=
  eq_map_of_cons rfl (fun _ _ => rfl) entries

theorem itemsToJson_eq (items : List Value) : itemsToJson items = items.map toJson :=
  eq_map_of_cons rfl (fun _ _ => rfl) items

theorem entriesToJson_eq (entries : List (String × Value)) :
    entriesToJson entries = entries.map fun entry => (entry.1, entry.2.toJson) :=
  eq_map_of_cons rfl (fun _ _ => rfl) entries

theorem itemsOfJson_eq (items : List Json) : itemsOfJson items = items.map ofJson :=
  eq_map_of_cons rfl (fun _ _ => rfl) items

theorem entriesOfJson_eq (fields : List (String × Json)) :
    entriesOfJson fields = fields.map fun field => (field.1, ofJson field.2) :=
  eq_map_of_cons rfl (fun _ _ => rfl) fields

/-- A finite number is written as the integer it is equal to if that is a signed word, and by its
bits otherwise. -/
theorem numberToJson_cases {x : Binary64} (finite : x.isFinite = true) :
    (∃ n, x.toInt? = some n ∧ Binary64.isWord n = true ∧ numberToJson x = .integer n) ∨
      ((∀ n, x.toInt? = some n → Binary64.isWord n = false) ∧ numberToJson x = .float x) := by
  cases whole : x.toInt? with
  | none =>
      have none : x.integral = none := by rw [Binary64.integral_eq, whole, Option.filter_none]
      rw [numberToJson, none]
      refine .inr ⟨fun n same => ?_, if_pos finite⟩
      cases same
  | some n =>
      cases word : Binary64.isWord n with
      | true =>
          have same : x.integral = some n := by
            rw [Binary64.integral_eq, whole]
            exact if_pos word
          rw [numberToJson, same]
          exact .inl ⟨n, rfl, word, rfl⟩
      | false =>
          have none : x.integral = none := by
            rw [Binary64.integral_eq, whole]
            exact if_neg (by simp [word])
          rw [numberToJson, none]
          refine .inr ⟨fun m same => ?_, if_pos finite⟩
          cases same
          exact word

theorem equal_plain_number (x : Binary64) :
    (ofJson (numberToJson x)).equal (number x).plain = true := by
  by_cases finite : x.isFinite = true
  · have real := Binary64.isNaN_of_isFinite finite
    have kept : (number x).plain = number x := if_pos finite
    rw [kept]
    cases whole : x.integral with
    | some n =>
        have written : numberToJson x = .integer n := by rw [numberToJson, whole]
        -- an integer has no sign to keep for a zero
        rw [written, ofJson, ofInt, Binary64.ofInt_of_integral whole, equal, Binary64.equal_comm]
        exact Binary64.equal_unsignZero real
    | none =>
        have written : numberToJson x = .float x := by
          rw [numberToJson, whole]
          exact if_pos finite
        rw [written, ofJson, equal]
        exact Binary64.equal_self real
  · have lost : (number x).plain = null := if_neg finite
    have written : numberToJson x = .null := by
      rw [numberToJson, Binary64.integral_of_not_isFinite finite]
      exact if_neg finite
    rw [lost, written]
    rfl

theorem equal_plain (value : Value) : (ofJson value.toJson).equal value.plain = true := by
  induction value with
  | null | unknown => rfl
  | bool | string => simp [toJson, ofJson, plain, equal]
  | number x => exact equal_plain_number x
  | list items ih | set items ih | tuple items ih =>
      rw [toJson, ofJson, plain, equal, equalItems_iff, itemsToJson_eq, itemsOfJson_eq,
        plainItems_eq, List.map_map, List.forall₂_map_left_iff, List.forall₂_map_right_iff,
        List.forall₂_same]
      exact ih
  | map entries ih | object entries ih =>
      rw [toJson, ofJson, plain, equal, equalEntries_iff, entriesToJson_eq, entriesOfJson_eq,
        plainEntries_eq, List.map_map, List.forall₂_map_left_iff, List.forall₂_map_right_iff,
        List.forall₂_same]
      exact fun entry member => ⟨rfl, ih entry member⟩

/-- What was read from plain JSON has nothing to lose. -/
theorem plain_ofJson {document : Json} (canonical : Json.Canonical document) :
    (ofJson document).plain = ofJson document := by
  induction canonical with
  | null | bool | string => rfl
  | integer least greatest => exact if_pos (Binary64.isFinite_ofInt least greatest)
  | float finite => exact if_pos finite
  | @array items _ ih =>
      rw [ofJson, plain, plainItems_eq, itemsOfJson_eq, List.map_map]
      exact congrArg tuple (List.map_congr_left ih)
  | @object fields _ _ ih =>
      rw [ofJson, plain, plainEntries_eq, entriesOfJson_eq, List.map_map]
      refine congrArg object (List.map_congr_left fun field member => ?_)
      exact Prod.ext rfl (ih field member)

/-- Through plain JSON a value loses the kinds of its sequences and collections, and what is unknown
or not finite. Every finite number is kept, as an integer or as a float; so what was read from plain
JSON comes back equal to itself. -/
theorem ofJson_toJson_plain :
    (∀ value : Value, (ofJson value.toJson).equal value.plain = true) ∧
      (∀ x : Binary64, x.isFinite = true →
        (∃ n, x.toInt? = some n ∧ Binary64.isWord n = true ∧ (number x).toJson = .integer n) ∨
          ((∀ n, x.toInt? = some n → Binary64.isWord n = false) ∧
            (number x).toJson = .float x)) ∧
      ∀ document, Json.Canonical document →
        (ofJson (ofJson document).toJson).equal (ofJson document) = true := by
  refine ⟨equal_plain, fun x finite => ?_, fun document canonical => ?_⟩
  · rw [toJson]
    exact numberToJson_cases finite
  · have same := equal_plain (ofJson document)
    rwa [plain_ofJson canonical] at same

/-- The greatest word without a sign is no integer within a word with one, so it comes back by way
of a float; a zero with a sign comes back by way of an integer. -/
theorem ofJson_toJson_plain_words :
    let document := Json.object [("big", .integer 0xFFFFFFFFFFFFFFFF),
      ("small", .array [.float ⟨0x8000000000000000⟩, .null])]
    Json.Canonical document ∧
      (ofJson (ofJson document).toJson).equal (ofJson document) = true := by
  intro document
  have canonical : Json.Canonical document := by
    refine .object (by rw [Dict.Sorted]; decide) ?_
    rw [List.forall_mem_cons, List.forall_mem_singleton]
    refine ⟨.integer (by decide) (by decide), .array ?_⟩
    rw [List.forall_mem_cons, List.forall_mem_singleton]
    exact ⟨.float (by decide), .null⟩
  exact ⟨canonical, ofJson_toJson_plain.2.2 document canonical⟩

end Value

end ScriptHost
