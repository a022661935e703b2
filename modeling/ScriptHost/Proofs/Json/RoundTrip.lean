import ScriptHost.Proofs.Dict
import ScriptHost.Proofs.Json.Quoted

set_option autoImplicit false

namespace ScriptHost.Json

mutual

/-- How deep containers nest in a document. -/
def depth : Json → Nat
  | array items => 1 + depthOfItems items
  | object fields => 1 + depthOfFields fields
  | _ => 0

def depthOfItems : List Json → Nat
  | [] => 0
  | item :: rest => max item.depth (depthOfItems rest)

def depthOfFields : List (String × Json) → Nat
  | [] => 0
  | (_, value) :: rest => max value.depth (depthOfFields rest)

end

theorem depthOfItems_le_iff {items : List Json} {bound : Nat} :
    depthOfItems items ≤ bound ↔ ∀ item ∈ items, item.depth ≤ bound := by
  induction items with
  | nil => simp [depthOfItems]
  | cons item rest ih => rw [depthOfItems, Nat.max_le, ih, List.forall_mem_cons]

theorem depthOfFields_le_iff {fields : List (String × Json)} {bound : Nat} :
    depthOfFields fields ≤ bound ↔ ∀ field ∈ fields, field.2.depth ≤ bound := by
  induction fields with
  | nil => simp [depthOfFields]
  | cons field rest ih => rw [depthOfFields, Nat.max_le, ih, List.forall_mem_cons]

theorem depth_item_lt {items : List Json} {item : Json} (member : item ∈ items) :
    item.depth < (array items).depth := by
  have inside := depthOfItems_le_iff.mp (Nat.le_refl _) item member
  rw [depth]
  omega

theorem depth_field_lt {fields : List (String × Json)} {field : String × Json}
    (member : field ∈ fields) : field.2.depth < (object fields).depth := by
  have inside := depthOfFields_le_iff.mp (Nat.le_refl _) field member
  rw [depth]
  omega

/-- An array is no deeper than another, if each of its items is no deeper than one there. -/
theorem depth_array_le {raws backs : List Json}
    (each : ∀ back ∈ backs, ∃ raw ∈ raws, back.depth ≤ raw.depth) :
    (array backs).depth ≤ (array raws).depth := by
  have deepest : depthOfItems backs ≤ depthOfItems raws := by
    apply depthOfItems_le_iff.mpr
    intro back member
    obtain ⟨raw, here, below⟩ := each back member
    exact Nat.le_trans below (depthOfItems_le_iff.mp (Nat.le_refl _) raw here)
  rw [depth, depth]
  omega

theorem depth_object_le {raws backs : List (String × Json)}
    (each : ∀ back ∈ backs, ∃ raw ∈ raws, back.2.depth ≤ raw.2.depth) :
    (object backs).depth ≤ (object raws).depth := by
  have deepest : depthOfFields backs ≤ depthOfFields raws := by
    apply depthOfFields_le_iff.mpr
    intro back member
    obtain ⟨raw, here, below⟩ := each back member
    exact Nat.le_trans below (depthOfFields_le_iff.mp (Nat.le_refl _) raw here)
  rw [depth, depth]
  omega

/-- A reader hands over a result and the rest if it is admitted, and else meets the limit. -/
def Outcome {α : Type} (admitted : Prop) (result : α) (rest : List UInt8) (read : Step α) : Prop :=
  (admitted → read = .ok (result, rest)) ∧
    (¬ admitted → ∃ failure, read = .error failure ∧ failure.fault = .recursionLimit)

/-- What can follow a document inside another one, or at the end of the input. -/
def Ends (rest : List UInt8) : Prop := ∀ byte ∈ rest.head?, byte = 44 ∨ byte = 93 ∨ byte = 125

/-- The text of a document is read as another one, on every level that admits it. -/
def ReadsAs (document back : Json) : Prop := ∀ levels rest, Ends rest →
  Outcome (document.depth ≤ levels) back rest (value levels (document.render ++ rest))

/-- A document is read back on every level that admits it. -/
def Reads (document : Json) : Prop := ReadsAs document document

theorem ends_renderItems (items : List Json) (rest : List UInt8) :
    Ends (renderItems items ++ rest) := by
  cases items <;> simp [Ends, renderItems]

theorem ends_renderFields (fields : List (String × Json)) (rest : List UInt8) :
    Ends (renderFields fields ++ rest) := by
  cases fields <;> simp [Ends, renderFields]

theorem skipBlanks_cons {byte : UInt8} (s : List UInt8) (solid : isBlank byte = false) :
    skipBlanks (byte :: s) = byte :: s := by
  rw [skipBlanks, List.dropWhile_cons_of_neg (by simp [solid])]

theorem skipBlanks_skipBlanks (s : List UInt8) : skipBlanks (skipBlanks s) = skipBlanks s := by
  induction s with
  | nil => rfl
  | cons byte s ih =>
      cases blank : isBlank byte with
      | false => rw [skipBlanks_cons s blank, skipBlanks_cons s blank]
      | true =>
          have passed : skipBlanks (byte :: s) = skipBlanks s := List.dropWhile_cons_of_pos blank
          rw [passed, ih]

theorem value_skipBlanks (levels : Nat) (s : List UInt8) :
    value levels (skipBlanks s) = value levels s := by
  cases levels <;> rw [value, valueWith, skipBlanks_skipBlanks] <;> rfl

/-- Blanks are passed over no further than to a byte that is none. -/
theorem length_skipBlanks_append (s t : List UInt8) {byte : UInt8} (solid : isBlank byte = false) :
    (byte :: t).length ≤ (skipBlanks (s ++ byte :: t)).length := by
  induction s with
  | nil => rw [List.nil_append, skipBlanks_cons t solid]
  | cons first s ih =>
      rw [List.cons_append]
      cases blank : isBlank first with
      | false =>
          rw [skipBlanks_cons _ blank, List.length_cons, List.length_cons, List.length_append,
            List.length_cons]
          omega
      | true =>
          have passed : skipBlanks (first :: (s ++ byte :: t)) = skipBlanks (s ++ byte :: t) :=
            List.dropWhile_cons_of_pos blank
          rw [passed]
          exact ih

/-- What reads as a document begins with a byte that does not close an array. -/
theorem begins_of_value {levels : Nat} {s : List UInt8} {result : Json × List UInt8}
    (read : value levels s = .ok result) :
    ∃ byte rest, skipBlanks s = byte :: rest ∧ byte ≠ 93 := by
  cases blanks : skipBlanks s with
  | nil => cases levels <;> simp [value, valueWith, blanks, fail] at read
  | cons byte rest =>
      refine ⟨byte, rest, rfl, ?_⟩
      rintro rfl
      cases levels <;> simp [value, valueWith, blanks, fail, isDigit] at read

theorem Outcome.map {α β : Type} {admitted : Prop} {result : α} {rest : List UInt8} {read : Step α}
    (f : α → β) (outcome : Outcome admitted result rest read) :
    Outcome admitted (f result) rest (Step.map f read) := by
  refine ⟨fun fits => ?_, fun deep => ?_⟩
  · rw [outcome.1 fits]
    rfl
  · obtain ⟨failure, failed, fault⟩ := outcome.2 deep
    exact ⟨failure, by rw [failed]; rfl, fault⟩

theorem items_skipBlanks (levels fuel : Nat) (before : List Json) (s : List UInt8) :
    items (value levels) (fuel + 1) before (skipBlanks s) =
      items (value levels) (fuel + 1) before s := by
  rw [items, items, value_skipBlanks]

/-- Behind an item and a comma the next item is read. -/
theorem items_comma {levels fuel : Nat} {item : Json} {s t : List UInt8} (before : List Json)
    (read : value levels s = .ok (item, 44 :: t)) {byte : UInt8} {tail : List UInt8}
    (begins : skipBlanks t = byte :: tail) (notClosing : byte ≠ 93) :
    items (value levels) (fuel + 2) before s =
      items (value levels) (fuel + 1) (item :: before) t := by
  have blanks : items (value levels) (fuel + 1) (item :: before) (byte :: tail) =
      items (value levels) (fuel + 1) (item :: before) t := by
    rw [← begins, items_skipBlanks]
  have comma : skipBlanks (44 :: t) = 44 :: t := skipBlanks_cons t rfl
  rw [items, read]
  simp only [under, comma, begins, if_neg notClosing, blanks]
  rfl

theorem items_bracket {levels fuel : Nat} {item : Json} {s t : List UInt8} (before : List Json)
    (read : value levels s = .ok (item, 93 :: t)) :
    items (value levels) (fuel + 1) before s = .ok (before.reverse ++ [item], t) := by
  have bracket : skipBlanks (93 :: t) = 93 :: t := skipBlanks_cons t rfl
  rw [items, read]
  simp only [under, bracket, if_true, List.reverse_cons]

theorem items_of_failure {levels fuel : Nat} {s : List UInt8} {failure : Failure}
    (before : List Json) (failed : value levels s = .error failure) :
    ∃ outer, items (value levels) (fuel + 1) before s = .error outer ∧
      outer.fault = failure.fault := by
  rw [items, failed]
  exact ⟨_, rfl, rfl⟩

/-- Items are read one after the other up to the closing bracket. -/
theorem items_renderItems (levels : Nat) {back : Json → Json} {first : Json} {more : List Json}
    {fuel : Nat} (before : List Json) (rest : List UInt8)
    (reads : ∀ item ∈ first :: more, ReadsAs item (back item)) (enough : more.length < fuel) :
    Outcome (depthOfItems (first :: more) ≤ levels) (before.reverse ++ (first :: more).map back)
      rest (items (value levels) fuel before (first.render ++ (renderItems more ++ rest))) := by
  obtain ⟨readsFirst, readsMore⟩ := List.forall_mem_cons.mp reads
  obtain ⟨fits, deep⟩ := readsFirst levels (renderItems more ++ rest) (ends_renderItems more rest)
  have nested : depthOfItems (first :: more) = max first.depth (depthOfItems more) := rfl
  induction more generalizing first fuel before with
  | nil =>
      obtain ⟨fuel, rfl⟩ : ∃ n, fuel = n + 1 := ⟨fuel - 1, by omega⟩
      have none : depthOfItems [] = 0 := rfl
      refine ⟨fun admitted => ?_, fun refused => ?_⟩
      · exact items_bracket before (fits (by omega))
      · obtain ⟨failure, failed, fault⟩ := deep (by omega)
        obtain ⟨outer, failedHere, same⟩ := items_of_failure before failed
        exact ⟨outer, failedHere, same.trans fault⟩
  | cons second more ih =>
      rw [List.length_cons] at enough
      obtain ⟨fuel, rfl⟩ : ∃ n, fuel = n + 2 := ⟨fuel - 2, by omega⟩
      obtain ⟨readsSecond, readsRest⟩ := List.forall_mem_cons.mp readsMore
      obtain ⟨fitsSecond, deepSecond⟩ :=
        readsSecond levels (renderItems more ++ rest) (ends_renderItems more rest)
      have behind := ih (back first :: before) readsMore (show more.length < fuel + 1 by omega)
        readsSecond readsRest fitsSecond deepSecond rfl
      rw [List.reverse_cons, List.append_assoc, List.singleton_append] at behind
      have deepest := (readsSecond second.depth _ (ends_renderItems more rest)).1 le_rfl
      obtain ⟨byte, tail, begins, notClosing⟩ := begins_of_value deepest
      have text : renderItems (second :: more) ++ rest =
          44 :: (second.render ++ (renderItems more ++ rest)) := by
        simp [renderItems]
      rw [text] at fits deep ⊢
      by_cases admitted : first.depth ≤ levels
      · rw [items_comma before (fits admitted) begins notClosing]
        refine ⟨fun all => behind.1 (by omega), fun some => behind.2 (by omega)⟩
      · obtain ⟨failure, failed, fault⟩ := deep admitted
        obtain ⟨outer, failedHere, same⟩ := items_of_failure before failed
        exact ⟨fun all => absurd all (by omega), fun _ => ⟨outer, failedHere, same.trans fault⟩⟩

/-- A field behind the opening quote of its name. -/
def fieldText (name : String) (text : List UInt8) : List UInt8 :=
  (utf8 name).flatMap escape ++ 34 :: 58 :: text

theorem stringBody_fieldText (name : String) (text : List UInt8) :
    stringBody (fieldText name text) = .ok (name, 58 :: text) :=
  stringBody_quoted name (58 :: text)

theorem fieldValue_colon {levels : Nat} (name : String) (text : List UInt8) :
    fieldValue (value levels) name (58 :: text) = under (.field name) (value levels text) := by
  have blanks : skipBlanks (58 :: text) = 58 :: text := skipBlanks_cons text rfl
  have behind : colon (58 :: text) = .ok text := by
    rw [colon, blanks]
    rfl
  rw [fieldValue, behind]

/-- Behind a field and a comma the next field is read. -/
theorem fields_comma {levels fuel : Nat} {document : Json} {name next : String}
    {text more : List UInt8} (before : List (String × Json))
    (read : value levels text = .ok (document, 44 :: 34 :: fieldText next more)) :
    fields (value levels) (fuel + 1) before (fieldText name text) =
      fields (value levels) fuel (Dict.insert name document before) (fieldText next more) := by
  have comma : skipBlanks (44 :: 34 :: fieldText next more) = 44 :: 34 :: fieldText next more :=
    skipBlanks_cons _ rfl
  have quote : skipBlanks (34 :: fieldText next more) = 34 :: fieldText next more :=
    skipBlanks_cons _ rfl
  rw [fields, stringBody_fieldText]
  simp only [under, fieldValue_colon, read, comma, quote]
  rfl

theorem fields_brace {levels fuel : Nat} {document : Json} {name : String}
    {text rest : List UInt8} (before : List (String × Json))
    (read : value levels text = .ok (document, 125 :: rest)) :
    fields (value levels) (fuel + 1) before (fieldText name text) =
      .ok (Dict.insert name document before, rest) := by
  have brace : skipBlanks (125 :: rest) = 125 :: rest := skipBlanks_cons rest rfl
  rw [fields, stringBody_fieldText]
  simp only [under, fieldValue_colon, read, brace]
  rfl

theorem fields_of_failure {levels fuel : Nat} {name : String} {text : List UInt8}
    {failure : Failure} (before : List (String × Json))
    (failed : value levels text = .error failure) :
    ∃ outer, fields (value levels) (fuel + 1) before (fieldText name text) = .error outer ∧
      outer.fault = failure.fault := by
  rw [fields, stringBody_fieldText]
  simp only [under, fieldValue_colon, failed]
  exact ⟨_, rfl, rfl⟩

/-- Fields are read one after the other up to the closing brace, and sorted in by their names. -/
theorem fields_renderFields (levels : Nat) {back : Json → Json} {name : String} {first : Json}
    {more : List (String × Json)} {fuel : Nat} (before : List (String × Json))
    (rest : List UInt8) (reads : ∀ field ∈ (name, first) :: more, ReadsAs field.2 (back field.2))
    (enough : more.length < fuel) :
    Outcome (depthOfFields ((name, first) :: more) ≤ levels)
      (((name, first) :: more).foldl (fun d field => Dict.insert field.1 (back field.2) d) before)
      rest (fields (value levels) fuel before
        (fieldText name (first.render ++ (renderFields more ++ rest)))) := by
  have readsFirst : ReadsAs first (back first) := reads (name, first) (by simp)
  have readsMore := (List.forall_mem_cons.mp reads).2
  obtain ⟨fits, deep⟩ := readsFirst levels (renderFields more ++ rest) (ends_renderFields more rest)
  have nested : depthOfFields ((name, first) :: more) = max first.depth (depthOfFields more) := rfl
  induction more generalizing name first fuel before with
  | nil =>
      obtain ⟨fuel, rfl⟩ : ∃ n, fuel = n + 1 := ⟨fuel - 1, by omega⟩
      have none : depthOfFields [] = 0 := rfl
      refine ⟨fun admitted => ?_, fun refused => ?_⟩
      · exact fields_brace before (fits (by omega))
      · obtain ⟨failure, failed, fault⟩ := deep (by omega)
        obtain ⟨outer, failedHere, same⟩ := fields_of_failure before failed
        exact ⟨outer, failedHere, same.trans fault⟩
  | cons second more ih =>
      obtain ⟨next, document⟩ := second
      rw [List.length_cons] at enough
      obtain ⟨fuel, rfl⟩ : ∃ n, fuel = n + 1 := ⟨fuel - 1, by omega⟩
      have readsSecond : ReadsAs document (back document) := readsMore (next, document) (by simp)
      have readsRest := (List.forall_mem_cons.mp readsMore).2
      obtain ⟨fitsSecond, deepSecond⟩ :=
        readsSecond levels (renderFields more ++ rest) (ends_renderFields more rest)
      have behind := ih (Dict.insert name (back first) before) readsMore
        (show more.length < fuel by omega) readsSecond readsRest fitsSecond deepSecond rfl
      have text : renderFields ((next, document) :: more) ++ rest =
          44 :: 34 :: fieldText next (document.render ++ (renderFields more ++ rest)) := by
        simp [renderFields, quoted, fieldText]
      rw [text] at fits deep ⊢
      by_cases admitted : first.depth ≤ levels
      · rw [fields_comma before (fits admitted)]
        refine ⟨fun all => behind.1 (by omega), fun some => behind.2 (by omega)⟩
      · obtain ⟨failure, failed, fault⟩ := deep admitted
        obtain ⟨outer, failedHere, same⟩ := fields_of_failure before failed
        exact ⟨fun all => absurd all (by omega), fun _ => ⟨outer, failedHere, same.trans fault⟩⟩

theorem renderItems_eq_cons (items : List Json) (rest : List UInt8) :
    ∃ byte tail, renderItems items ++ rest = byte :: tail ∧ isBlank byte = false ∧
      items.length ≤ tail.length := by
  induction items with
  | nil => exact ⟨93, rest, rfl, rfl, Nat.zero_le _⟩
  | cons item more ih =>
      obtain ⟨byte, tail, behind, -, longer⟩ := ih
      refine ⟨44, item.render ++ (renderItems more ++ rest), by simp [renderItems], rfl, ?_⟩
      rw [behind, List.length_append, List.length_cons, List.length_cons]
      omega

theorem length_renderFields (fields : List (String × Json)) (rest : List UInt8) :
    fields.length < (renderFields fields ++ rest).length := by
  induction fields with
  | nil => simp [renderFields]
  | cons field more ih =>
      obtain ⟨name, document⟩ := field
      have shorter : (renderFields more ++ rest).length ≤
          (quoted name ++ 58 :: (document.render ++ renderFields more) ++ rest).length := by
        simp only [List.length_append, List.length_cons]
        omega
      rw [renderFields, List.cons_append, List.length_cons, List.length_cons]
      omega

theorem reads_string (text : String) : Reads (string text) := by
  intro levels rest _
  have quote : skipBlanks ((string text).render ++ rest) =
      34 :: ((utf8 text).flatMap escape ++ 34 :: rest) := by
    rw [render, scalarText, quoted_append]
    · exact skipBlanks_cons _ rfl
    all_goals simp
  have read : value levels ((string text).render ++ rest) = .ok (string text, rest) := by
    cases levels <;> rw [value, valueWith, quote] <;> simp only [stringBody_quoted] <;> rfl
  exact ⟨fun _ => read, fun deep => absurd (Nat.zero_le levels) deep⟩

/-- A container that may stand here reads what it holds one level below. -/
theorem value_succ_array (levels : Nat) (s : List UInt8) :
    value (levels + 1) (91 :: s) = Step.map array (arrayTail (value levels) s) := by
  have bracket : skipBlanks (91 :: s) = 91 :: s := skipBlanks_cons s rfl
  rw [value, valueWith, bracket]
  rfl

theorem value_zero_array (s : List UInt8) : value 0 (91 :: s) = fail .recursionLimit s := by
  have bracket : skipBlanks (91 :: s) = 91 :: s := skipBlanks_cons s rfl
  rw [value, valueWith, bracket]
  rfl

theorem value_succ_object (levels : Nat) (s : List UInt8) :
    value (levels + 1) (123 :: s) = Step.map object (objectTail (value levels) s) := by
  have brace : skipBlanks (123 :: s) = 123 :: s := skipBlanks_cons s rfl
  rw [value, valueWith, brace]
  rfl

theorem value_zero_object (s : List UInt8) : value 0 (123 :: s) = fail .recursionLimit s := by
  have brace : skipBlanks (123 :: s) = 123 :: s := skipBlanks_cons s rfl
  rw [value, valueWith, brace]
  rfl

/-- A container is admitted one level above what it holds. -/
theorem Outcome.succ {α : Type} {inside levels : Nat} {result : α} {rest : List UInt8}
    {read : Step α} (outcome : Outcome (inside ≤ levels) result rest read) :
    Outcome (1 + inside ≤ levels + 1) result rest read :=
  ⟨fun fits => outcome.1 (by omega), fun deep => outcome.2 (by omega)⟩

theorem readsAs_array {back : Json → Json} {items : List Json}
    (reads : ∀ item ∈ items, ReadsAs item (back item)) :
    ReadsAs (array items) (array (items.map back)) := by
  intro levels rest _
  obtain ⟨tail, begins⟩ : ∃ tail, (array items).render ++ rest = 91 :: tail := by
    cases items <;> exact ⟨_, rfl⟩
  cases levels with
  | zero =>
      rw [begins, value_zero_array]
      exact ⟨fun fits => absurd fits (by rw [depth]; omega), fun _ => ⟨_, rfl, rfl⟩⟩
  | succ levels =>
      cases items with
      | nil =>
          have text : (array []).render ++ rest = 91 :: 93 :: rest := rfl
          have bracket : skipBlanks (93 :: rest) = 93 :: rest := skipBlanks_cons rest rfl
          rw [text, value_succ_array, arrayTail, bracket]
          exact ⟨fun _ => rfl, fun deep => absurd (Nat.le_add_left 1 levels) deep⟩
      | cons first more =>
          have text : (array (first :: more)).render ++ rest =
              91 :: (first.render ++ (renderItems more ++ rest)) := by
            simp [render]
          have deepest :=
            (reads first (by simp) first.depth _ (ends_renderItems more rest)).1 le_rfl
          obtain ⟨byte, tail, begins, notClosing⟩ := begins_of_value deepest
          have enough : more.length < (byte :: tail).length := by
            obtain ⟨solid, behind, same, notBlank, longer⟩ := renderItems_eq_cons more rest
            have kept := length_skipBlanks_append first.render behind notBlank
            rw [← same, begins, same, List.length_cons] at kept
            omega
          have inside := items_renderItems levels [] rest reads enough
          have blanks := items_skipBlanks levels tail.length []
            (first.render ++ (renderItems more ++ rest))
          rw [begins] at blanks
          rw [text, value_succ_array, arrayTail, begins]
          simp only [if_neg notClosing]
          rw [List.length_cons, blanks]
          exact (inside.map array).succ

theorem reads_array {items : List Json} (reads : ∀ item ∈ items, Reads item) :
    Reads (array items) := by
  have same : ReadsAs (array items) (array (items.map id)) := readsAs_array reads
  rwa [List.map_id] at same

/-- The fields of an object are read in the order of their names. -/
theorem readsAs_object {back : Json → Json} {fields : List (String × Json)}
    (reads : ∀ field ∈ fields, ReadsAs field.2 (back field.2)) :
    ReadsAs (object fields)
      (object (Dict.ofList (fields.map fun field => (field.1, back field.2)))) := by
  intro levels rest _
  obtain ⟨tail, begins⟩ : ∃ tail, (object fields).render ++ rest = 123 :: tail := by
    cases fields <;> exact ⟨_, rfl⟩
  cases levels with
  | zero =>
      rw [begins, value_zero_object]
      exact ⟨fun fits => absurd fits (by rw [depth]; omega), fun _ => ⟨_, rfl, rfl⟩⟩
  | succ levels =>
      cases fields with
      | nil =>
          have text : (object []).render ++ rest = 123 :: 125 :: rest := rfl
          have brace : skipBlanks (125 :: rest) = 125 :: rest := skipBlanks_cons rest rfl
          rw [text, value_succ_object, objectTail, brace]
          exact ⟨fun _ => rfl, fun deep => absurd (Nat.le_add_left 1 levels) deep⟩
      | cons field more =>
          obtain ⟨name, first⟩ := field
          have text : (object ((name, first) :: more)).render ++ rest =
              123 :: 34 :: fieldText name (first.render ++ (renderFields more ++ rest)) := by
            simp [render, quoted, fieldText]
          have quote :
              skipBlanks (34 :: fieldText name (first.render ++ (renderFields more ++ rest))) =
              34 :: fieldText name (first.render ++ (renderFields more ++ rest)) :=
            skipBlanks_cons _ rfl
          have enough : more.length <
              (fieldText name (first.render ++ (renderFields more ++ rest))).length + 1 := by
            have shorter := length_renderFields more rest
            simp only [fieldText, List.length_append, List.length_cons] at shorter ⊢
            omega
          have inside := fields_renderFields levels [] rest reads enough
          rw [text, value_succ_object, objectTail, quote, Dict.ofList, List.foldl_map]
          exact (inside.map object).succ

theorem reads_object {fields : List (String × Json)} (sorted : Dict.Sorted fields)
    (reads : ∀ field ∈ fields, Reads field.2) : Reads (object fields) := by
  have same : ReadsAs (object fields)
      (object (Dict.ofList (fields.map fun field => (field.1, id field.2)))) :=
    readsAs_object reads
  simp only [id_eq, Prod.mk.eta, List.map_id'] at same
  rwa [Dict.ofList_of_sorted sorted] at same

/-- A document alone is read within the limit on nesting, and refused beyond it. -/
theorem parse_render_as {document back : Json} (reads : ReadsAs document back) :
    (document.depth ≤ depthLimit → parse document.render = .ok back) ∧
      (depthLimit < document.depth →
        ∃ error, parse document.render = .error error ∧ error.fault = .recursionLimit) := by
  obtain ⟨fits, deep⟩ := reads depthLimit [] (by simp [Ends])
  rw [List.append_nil] at fits deep
  refine ⟨fun admitted => ?_, fun refused => ?_⟩
  · rw [parse, fits admitted]
    rfl
  · obtain ⟨failure, failed, fault⟩ := deep (by omega)
    rw [parse, failed]
    exact ⟨_, rfl, fault⟩

theorem parse_render {document : Json} (reads : Reads document) :
    (document.depth ≤ depthLimit → parse document.render = .ok document) ∧
      (depthLimit < document.depth →
        ∃ error, parse document.render = .error error ∧ error.fault = .recursionLimit) :=
  parse_render_as reads

end ScriptHost.Json
