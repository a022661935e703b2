import ScriptHost.Proofs.Json.Number

set_option autoImplicit false

namespace ScriptHost.Json

/-- Documents as the reader hands them over. -/
inductive Canonical : Json → Prop
  | null : Canonical null
  | bool (value : Bool) : Canonical (bool value)
  | integer {n : Int} (least : -0x8000000000000000 ≤ n) (greatest : n < 0x10000000000000000) :
      Canonical (integer n)
  | float {x : Binary64} (finite : x.isFinite = true) : Canonical (float x)
  | string (text : String) : Canonical (string text)
  | array {items : List Json} (each : ∀ item ∈ items, Canonical item) : Canonical (array items)
  | object {fields : List (String × Json)} (sorted : Dict.Sorted fields)
      (each : ∀ field ∈ fields, Canonical field.2) : Canonical (object fields)

/-- A word is read to its end. -/
theorem word_append (document : Json) (expected rest : List UInt8) :
    word document expected (expected ++ rest) = .ok (document, rest) := by
  induction expected with
  | nil => cases rest <;> rfl
  | cons byte expected ih => simp [word, ih]

theorem reads_null : Reads null := by
  intro levels rest _
  have begins : skipBlanks (null.render ++ rest) = 110 :: ([117, 108, 108] ++ rest) :=
    skipBlanks_cons _ rfl
  have read : value levels (null.render ++ rest) = .ok (null, rest) := by
    cases levels <;> rw [value, valueWith, begins] <;> exact word_append null _ rest
  exact ⟨fun _ => read, fun deep => absurd (Nat.zero_le levels) deep⟩

theorem reads_bool (b : Bool) : Reads (bool b) := by
  intro levels rest _
  have read : value levels ((bool b).render ++ rest) = .ok (bool b, rest) := by
    cases b with
    | true =>
        have begins : skipBlanks ((bool true).render ++ rest) = 116 :: ([114, 117, 101] ++ rest) :=
          skipBlanks_cons _ rfl
        cases levels <;> rw [value, valueWith, begins] <;> exact word_append (bool true) _ rest
    | false =>
        have begins : skipBlanks ((bool false).render ++ rest) =
            102 :: ([97, 108, 115, 101] ++ rest) := skipBlanks_cons _ rfl
        cases levels <;> rw [value, valueWith, begins] <;> exact word_append (bool false) _ rest
  exact ⟨fun _ => read, fun deep => absurd (Nat.zero_le levels) deep⟩

theorem Canonical.reads {document : Json} (canonical : Canonical document) : Reads document := by
  induction canonical with
  | null => exact reads_null
  | bool value => exact reads_bool value
  | integer least greatest => exact reads_integer least greatest
  | float finite => exact reads_float finite
  | string text => exact reads_string text
  | array _ ih => exact reads_array ih
  | object sorted _ ih => exact reads_object sorted ih

section Number

/-- Numbers as the reader hands them over. -/
inductive Numeral : Json → Prop
  | integer {n : Int} (least : -0x8000000000000000 ≤ n) (greatest : n < 0x10000000000000000) :
      Numeral (integer n)
  | float {x : Binary64} (finite : x.isFinite = true) : Numeral (float x)

theorem Numeral.canonical {document : Json} (numeral : Numeral document) : Canonical document := by
  cases numeral with
  | integer least greatest => exact .integer least greatest
  | float finite => exact .float finite

theorem Numeral.depth_eq {document : Json} (numeral : Numeral document) : document.depth = 0 := by
  cases numeral <;> rfl

variable {negative : Bool} {s rest : List UInt8} {document : Json}

theorem numeral_of_floating {d : Decimal} (read : floating negative d s = .ok (document, rest)) :
    Numeral document := by
  rw [floating] at read
  split at read
  · cases read
  · rename_i real
    cases read
    have number := Binary64.isNaN_ofDecimal negative d
    exact .float (Binary64.isFinite_of_isInfinite number (by simpa using real))

theorem numeral_of_exponentPart {coefficient places : Nat}
    (read : exponentPart negative coefficient places s = .ok (document, rest)) :
    Numeral document := by
  have zero : (Binary64.ofUnsigned negative 0).isFinite = true := by
    cases negative <;> rfl
  unfold exponentPart at read
  simp only at read
  split at read
  · cases read
  split at read
  · split at read
    · exact numeral_of_floating read
    · -- with either sign or none
      split at read
      all_goals
        split at read
        · cases read
        · cases read
          exact .float zero
  · cases read

/-- A whole numeral is a word, or it is read as a float. -/
theorem whole_cases (negative : Bool) (n : Nat) : Numeral (whole negative n) ∨
    ∃ d, whole negative n = .float (.ofDecimal negative d) := by
  unfold whole
  split
  · rename_i sign
    subst sign
    split
    · exact .inl (.integer (by omega) (by omega))
    · exact .inr ⟨_, rfl⟩
  · rename_i sign
    obtain rfl := Bool.eq_false_of_not_eq_true sign
    split
    · exact .inl (.integer (by omega) (by omega))
    · exact .inr ⟨_, rfl⟩

theorem numeral_of_floatOrWhole {n : Nat}
    (read : numberTail.floatOrWhole negative n s = .ok (document, rest)) : Numeral document := by
  rw [numberTail.floatOrWhole] at read
  rcases whole_cases negative n with numeral | ⟨d, same⟩
  · split at read
    · split at read
      · cases read
      · rename_i x same _
        cases read
        exact same ▸ numeral
    · cases read
      exact numeral
  · simp only [same] at read
    exact numeral_of_floating read

theorem numeral_of_numberTail {n : Nat}
    (read : numberTail negative n s = .ok (document, rest)) : Numeral document := by
  unfold numberTail at read
  split at read
  · exact numeral_of_floatOrWhole read
  split at read
  · simp only at read
    split at read
    · split at read <;> cases read
    split at read
    · exact numeral_of_floating read
    split at read
    · exact numeral_of_exponentPart read
    · exact numeral_of_floating read
  split at read
  · exact numeral_of_exponentPart read
  · exact numeral_of_floatOrWhole read

theorem numeral_of_number (read : number negative s = .ok (document, rest)) :
    Numeral document := by
  unfold number at read
  split at read
  · cases read
  split at read
  · split at read
    · exact numeral_of_numberTail read
    split at read
    · cases read
    · exact numeral_of_numberTail read
  split at read
  · exact numeral_of_numberTail read
  · cases read

end Number

theorem eq_of_word {document result : Json} {expected s rest : List UInt8}
    (read : word document expected s = .ok (result, rest)) : result = document := by
  induction expected generalizing s with
  | nil =>
      cases read
      rfl
  | cons byte expected ih =>
      cases s with
      | nil => cases read
      | cons next s =>
          rw [word] at read
          split at read
          · exact ih read
          · cases read

theorem under_eq_ok {α : Type} {place : Place} {read : Except Failure α} {result : α} :
    under place read = .ok result ↔ read = .ok result := by
  cases read <;> simp [under]

theorem map_eq_ok {α β : Type} {f : α → β} {read : Step α} {result : β} {rest : List UInt8} :
    Step.map f read = .ok (result, rest) ↔
      ∃ inner, read = .ok (inner, rest) ∧ f inner = result := by
  rcases read with failure | ⟨inner, behind⟩
  · simp [Step.map]
  · simp [Step.map, and_comm]

section Container

variable {α : Type} {P : α → Prop} {s rest : List UInt8}

/-- What holds of everything that is read inside an array holds of its items. -/
theorem forall_of_items {item : List UInt8 → Step α}
    (each : ∀ s result rest, item s = .ok (result, rest) → P result) {fuel : Nat}
    {before results : List α} (inBefore : ∀ x ∈ before, P x)
    (read : items item fuel before s = .ok (results, rest)) : ∀ x ∈ results, P x := by
  induction fuel generalizing before s with
  | zero => cases read
  | succ fuel ih =>
      rw [items] at read
      cases first : under (.item before.length) (item s) with
      | error failure => simp [first] at read
      | ok result =>
          obtain ⟨value, behind⟩ := result
          have all : ∀ x ∈ value :: before, P x :=
            List.forall_mem_cons.mpr ⟨each _ _ _ (under_eq_ok.mp first), inBefore⟩
          simp only [first] at read
          split at read
          · cases read
          split at read
          · cases read
            simpa [or_comm] using all
          split at read
          · split at read
            · cases read
            split at read
            · cases read
            · exact ih all read
          · cases read

theorem forall_of_arrayTail {item : List UInt8 → Step α}
    (each : ∀ s result rest, item s = .ok (result, rest) → P result) {results : List α}
    (read : arrayTail item s = .ok (results, rest)) : ∀ x ∈ results, P x := by
  unfold arrayTail at read
  split at read
  · cases read
  split at read
  · cases read
    exact List.forall_mem_nil P
  · exact forall_of_items each (List.forall_mem_nil P) read

/-- What holds of everything that is read inside an object holds of its fields, and their names
ascend. -/
theorem forall_of_fields {value : List UInt8 → Step α}
    (each : ∀ s result rest, value s = .ok (result, rest) → P result) {fuel : Nat}
    {before results : List (String × α)} (sorted : Dict.Sorted before)
    (inBefore : ∀ field ∈ before, P field.2)
    (read : fields value fuel before s = .ok (results, rest)) :
    Dict.Sorted results ∧ ∀ field ∈ results, P field.2 := by
  induction fuel generalizing before s with
  | zero => cases read
  | succ fuel ih =>
      rw [fields] at read
      cases named : under .unnamed (stringBody s) with
      | error failure => simp [named] at read
      | ok key =>
          obtain ⟨name, behindName⟩ := key
          simp only [named] at read
          cases first : fieldValue value name behindName with
          | error failure => simp [first] at read
          | ok result =>
              obtain ⟨document, behind⟩ := result
              have holds : P document := by
                rw [fieldValue] at first
                split at first
                · cases first
                · exact each _ _ _ (under_eq_ok.mp first)
              have all : ∀ field ∈ Dict.insert name document before, P field.2 := by
                intro field member
                rcases Dict.mem_of_mem_insert member with rfl | old
                · exact holds
                · exact inBefore field old
              have ascend : Dict.Sorted (Dict.insert name document before) :=
                Dict.sorted_insert sorted
              simp only [first] at read
              split at read
              · cases read
              split at read
              · cases read
                exact ⟨ascend, all⟩
              split at read
              · split at read
                · cases read
                split at read
                · exact ih ascend all read
                split at read <;> cases read
              · cases read

theorem forall_of_objectTail {value : List UInt8 → Step α}
    (each : ∀ s result rest, value s = .ok (result, rest) → P result)
    {results : List (String × α)} (read : objectTail value s = .ok (results, rest)) :
    Dict.Sorted results ∧ ∀ field ∈ results, P field.2 := by
  unfold objectTail at read
  split at read
  · cases read
  split at read
  · cases read
    exact ⟨Dict.sorted_nil, by simp⟩
  split at read
  · exact forall_of_fields each Dict.sorted_nil (by simp) read
  · cases read

end Container

/-- If what is read one level below is canonical and not too deep, so is what is read. -/
theorem canonical_of_valueWith {nested : Option (List UInt8 → Step Json)} {levels : Nat}
    (each : ∀ reader ∈ nested, ∃ below, levels = below + 1 ∧ ∀ s result rest,
      reader s = .ok (result, rest) → Canonical result ∧ result.depth ≤ below)
    {s rest : List UInt8} {document : Json} (read : valueWith nested s = .ok (document, rest)) :
    Canonical document ∧ document.depth ≤ levels := by
  unfold valueWith at read
  split at read
  · cases read
  split at read
  · obtain ⟨text, -, rfl⟩ := map_eq_ok.mp read
    exact ⟨.string text, Nat.zero_le _⟩
  split at read
  · split at read
    · cases read
    · obtain ⟨results, inside, rfl⟩ := map_eq_ok.mp read
      obtain ⟨below, rfl, member⟩ := each _ rfl
      have all := forall_of_arrayTail member inside
      refine ⟨.array fun item here => (all item here).1, ?_⟩
      rw [depth, Nat.add_comm 1, Nat.add_le_add_iff_right]
      exact depthOfItems_le_iff.mpr fun item here => (all item here).2
  split at read
  · split at read
    · cases read
    · obtain ⟨results, inside, rfl⟩ := map_eq_ok.mp read
      obtain ⟨below, rfl, member⟩ := each _ rfl
      obtain ⟨sorted, all⟩ := forall_of_objectTail member inside
      refine ⟨.object sorted fun field here => (all field here).1, ?_⟩
      rw [depth, Nat.add_comm 1, Nat.add_le_add_iff_right]
      exact depthOfFields_le_iff.mpr fun field here => (all field here).2
  have number {negative : Bool} {s : List UInt8}
      (read : number negative s = .ok (document, rest)) :
      Canonical document ∧ document.depth ≤ levels := by
    have numeral := numeral_of_number read
    exact ⟨numeral.canonical, numeral.depth_eq ▸ Nat.zero_le levels⟩
  split at read
  · exact number read
  split at read
  · exact number read
  split at read
  · rw [eq_of_word read]
    exact ⟨.null, Nat.zero_le _⟩
  split at read
  · rw [eq_of_word read]
    exact ⟨.bool true, Nat.zero_le _⟩
  split at read
  · rw [eq_of_word read]
    exact ⟨.bool false, Nat.zero_le _⟩
  · cases read

/-- The reader hands over canonical documents, of no more levels than it was allowed. -/
theorem canonical_of_value {levels : Nat} {s rest : List UInt8} {document : Json}
    (read : value levels s = .ok (document, rest)) :
    Canonical document ∧ document.depth ≤ levels := by
  induction levels generalizing s rest document with
  | zero => exact canonical_of_valueWith (by simp) read
  | succ levels ih =>
      apply canonical_of_valueWith ?_ read
      rintro reader ⟨⟩
      exact ⟨levels, rfl, fun s result rest inside => ih inside⟩

theorem value_of_parse {bytes : List UInt8} {document : Json}
    (parsed : parse bytes = .ok document) :
    ∃ rest, value depthLimit bytes = .ok (document, rest) := by
  rw [parse] at parsed
  cases read : value depthLimit bytes with
  | error failure => simp [read, finish, Except.mapError] at parsed
  | ok result =>
      obtain ⟨inner, rest⟩ := result
      rw [read, finish] at parsed
      split at parsed
      · cases parsed
        exact ⟨rest, rfl⟩
      · cases parsed

theorem canonical_of_parse {bytes : List UInt8} {document : Json}
    (parsed : parse bytes = .ok document) : Canonical document := by
  obtain ⟨rest, read⟩ := value_of_parse parsed
  exact (canonical_of_value read).1

theorem depth_le_of_parse {bytes : List UInt8} {document : Json}
    (parsed : parse bytes = .ok document) : document.depth ≤ depthLimit := by
  obtain ⟨rest, read⟩ := value_of_parse parsed
  exact (canonical_of_value read).2

end ScriptHost.Json
