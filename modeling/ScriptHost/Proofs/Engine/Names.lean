import ScriptHost.Proofs.Engine.Raise
import ScriptHost.Proofs.Number.Reading

set_option autoImplicit false

namespace ScriptHost.Engine

open Binary64

/-- The numeric keys of a table: words, and numbers that are not equal to one. A number that is
equal to a word is kept as that word. -/
inductive Key.Numeric : Key → Prop
  | integer {n : Int} (word : isWord n = true) : Numeric (.integer n)
  | number {x : Binary64} (number : x.isNaN = false)
      (other : ∀ n, isWord n = true → x.toInt? ≠ some n) : Numeric (.number x)

theorem integral_eq_none {x : Binary64} (other : ∀ n, isWord n = true → x.toInt? ≠ some n) :
    x.integral = none := by
  rw [integral_eq, Option.filter_eq_none_iff]
  intro n whole word
  exact other n word whole

theorem Key.Numeric.text_injective {key key' : Key} (numeric : key.Numeric)
    (numeric' : key'.Numeric) (same : key.text = key'.text) : key = key' := by
  cases numeric with
  | @integer n word =>
      cases numeric' with
      | integer => rw [toString_int_injective same]
      | number number other =>
          exact absurd same.symm (plainText_ne_toString number (integral_eq_none other) word)
  | @number x number other =>
      cases numeric' with
      | integer word =>
          exact absurd same (plainText_ne_toString number (integral_eq_none other) word)
      | number number' => rw [plainText_injective number number' same]

theorem Key.Numeric.name_eq {key : Key} (numeric : key.Numeric) : key.name = .ok key.text := by
  cases numeric <;> rfl

/-- A dictionary keeps each of some entries: what it is raised as stands under its own name, and
there is nothing else. -/
def Keeps (entries : List (Key × Tree)) (d : List (String × Value)) : Prop :=
  ∃ pairs, d.Perm pairs ∧
    List.Forall₂ (fun entry pair => entry.1.name = .ok pair.1 ∧ raise entry.2 = .ok pair.2)
      entries pairs

/-- A table whose keys have different names keeps all its entries. -/
theorem exists_keeps {entries : List (Key × Tree)} (texts : (entries.map (·.1.text)).Nodup)
    {result : Value} (raised : raise (.table entries) = .ok result) :
    ∃ d, Dict.Sorted d ∧ Keeps entries d ∧ Classified d result := by
  obtain ⟨native, portable⟩ := portable_table.mp (portable_of_raise raised)
  choose! value each using fun entry member => exists_raise (portable entry member)
  have table := raise_table native each
  rw [List.map_id', raised, Except.ok.injEq] at table
  have distinct : (Dict.keys (entries.map fun entry => (entry.1.text, value entry))).Nodup := by
    rwa [Dict.keys, List.map_map]
  refine ⟨_, Dict.sorted_ofList _, ⟨_, Dict.perm_ofList distinct, ?_⟩,
    table ▸ classified_classify _⟩
  rw [List.forall₂_map_right_iff, List.forall₂_same]
  exact fun entry member => ⟨name_eq_text (native entry member), each entry member⟩

/-- Different numeric keys have different names, so that a table without texts among its keys is
raised with all its entries. -/
theorem raise_numeric :
    (∀ key key' : Key, key.Numeric → key'.Numeric → key ≠ key' →
      ∃ name name', key.name = .ok name ∧ key'.name = .ok name' ∧ name ≠ name') ∧
      ∀ (entries : List (Key × Tree)) (value : Value),
        (∀ entry ∈ entries, entry.1.Numeric ∨ ∃ typeName, entry.1 = .foreign typeName) →
          (entries.map Prod.fst).Nodup → raise (.table entries) = .ok value →
            ∃ d, Dict.Sorted d ∧ Keeps entries d ∧ Classified d value := by
  constructor
  · intro key key' numeric numeric' different
    exact ⟨key.text, key'.text, numeric.name_eq, numeric'.name_eq,
      fun same => different (numeric.text_injective numeric' same)⟩
  · intro entries value keys distinct raised
    obtain ⟨native, -⟩ := portable_table.mp (portable_of_raise raised)
    have numeric : ∀ key ∈ entries.map Prod.fst, key.Numeric := by
      rw [List.forall_mem_map]
      intro entry member
      rcases keys entry member with numeric | ⟨typeName, foreign⟩
      · exact numeric
      · exact absurd foreign (native entry member typeName)
    have texts : ((entries.map Prod.fst).map Key.text).Nodup :=
      distinct.map_on fun key member key' member' same =>
        (numeric key member).text_injective (numeric key' member') same
    rw [List.map_map] at texts
    exact exists_keeps texts raised

/-- The greatest word and the limit of words, which is the number that is nearest to it. -/
theorem raise_numeric_limit :
    let entries := [(.integer 9223372036854775807, .bool true), (.number limit, .bool false)]
    let value := .object [("9223372036854775807", .bool true), ("9223372036854776000", .bool false)]
    raise (.table entries) = .ok value ∧
      (∃ name name', (Key.integer 9223372036854775807).name = .ok name ∧
        (Key.number limit).name = .ok name' ∧ name ≠ name') ∧
        ∃ d, Dict.Sorted d ∧ Keeps entries d ∧ Classified d value := by
  intro entries value
  have word : (Key.integer 9223372036854775807).Numeric := .integer (by decide)
  have number : (Key.number limit).Numeric := by
    refine .number isNaN_limit fun n inside same => ?_
    rw [toInt?_limit, Option.some.injEq] at same
    rw [← same] at inside
    exact absurd inside (by decide)
  have raised : raise (.table entries) = .ok value := by
    simp only [entries, raise, raiseEntries, Key.name, plainText_limit]
    rfl
  exact ⟨raised, raise_numeric.1 _ _ word number (by simp),
    raise_numeric.2 entries value (by simpa [entries] using ⟨word, number⟩)
      (by simp [entries]) raised⟩

end ScriptHost.Engine
