import ScriptHost.Proofs.Wire.Sound

set_option autoImplicit false

namespace ScriptHost

namespace MsgPack

/-- A document with the pairs of any maps inside in another order. A move is a document, or a pair
of them, with what it becomes. -/
inductive Reordered : MsgPack → MsgPack → Prop
  | refl (document : MsgPack) : Reordered document document
  | array {moves : List (MsgPack × MsgPack)} (inside : ∀ move ∈ moves, Reordered move.1 move.2) :
      Reordered (array (moves.map Prod.fst)) (array (moves.map Prod.snd))
  | map {moves others : List ((MsgPack × MsgPack) × (MsgPack × MsgPack))}
      (order : others.Perm moves) (keys : ∀ move ∈ moves, Reordered move.1.1 move.2.1)
      (values : ∀ move ∈ moves, Reordered move.1.2 move.2.2) :
      Reordered (map (moves.map Prod.fst)) (map (others.map Prod.snd))

def KeysDiffer : MsgPack → Prop
  | map pairs => (pairs.map Prod.fst).Nodup
  | _ => True

/-- No key stands twice in a map, here and inside. -/
def Distinct (document : MsgPack) : Prop := ∀ part ∈ document.parts, part.KeysDiffer

theorem distinct_iff {document : MsgPack} : document.Distinct ↔
    document.KeysDiffer ∧ ∀ child ∈ document.children, child.Distinct := forall_mem_parts

variable {raw other : MsgPack}

/-- What holds texts or bytes has no order inside. -/
theorem Reordered.asText?_eq (reordered : Reordered raw other) : other.asText? = raw.asText? := by
  cases reordered <;> rfl

end MsgPack

namespace Wire.Binary

theorem declaredType_of_reordered {raw other : MsgPack} (reordered : raw.Reordered other) :
    declaredType other = declaredType raw := by
  cases reordered <;> rfl

variable {ty : Ty} {typeOf : String → Option Ty}
  {pairs others : List (MsgPack × (Ty → Decoded Value))}

/-- Pairs with different keys stand for entries with different names. -/
theorem agree_of_keys (distinct : (pairs.map Prod.fst).Nodup) :
    Dict.Agree (pairs.filterMap (entryOf? typeOf)) := by
  intro entry member other inside same
  obtain ⟨pair, here, found⟩ := List.mem_filterMap.mp member
  obtain ⟨second, there, also⟩ := List.mem_filterMap.mp inside
  have keys : pair.1 = second.1 := by
    rw [eq_ofText_of_asText? (entryOf?_eq_some.mp found).1,
      eq_ofText_of_asText? (entryOf?_eq_some.mp also).1, same]
  obtain rfl : pair = second := List.inj_on_of_nodup_map distinct here there keys
  exact congrArg Prod.snd (Option.some.inj (found.symm.trans also))

/-- Pairs with different keys are read alike in any order. -/
theorem readEntries_perm (order : others.Perm pairs) (distinct : (pairs.map Prod.fst).Nodup)
    (entries : List (String × Value)) : readEntries ty typeOf [] others = .ok entries ↔
      readEntries ty typeOf [] pairs = .ok entries := by
  have same : Dict.ofList (others.filterMap (entryOf? typeOf)) =
      Dict.ofList (pairs.filterMap (entryOf? typeOf)) :=
    (Dict.ofList_perm (order.symm.filterMap _) (agree_of_keys distinct)).symm
  rw [Dict.ofList, Dict.ofList] at same
  rw [readEntries_eq_ok, readEntries_eq_ok, same]
  simp only [order.mem_iff]

theorem readMap_object_eq_ok {attributes : List (String × Ty)} {value : Value} :
    readMap (.object attributes) pairs = .ok value ↔ ∃ entries,
      readEntries (.object attributes) (Dict.get? attributes) [] pairs = .ok entries ∧
        complete attributes entries = .ok value := by
  rw [readMap]
  cases readEntries (.object attributes) (Dict.get? attributes) [] pairs <;> simp

/-- A map is read alike with its pairs in any order. -/
theorem readMap_perm (order : others.Perm pairs) (distinct : (pairs.map Prod.fst).Nodup)
    (value : Value) : readMap ty others = .ok value ↔ readMap ty pairs = .ok value := by
  cases ty with
  | map element => simp only [readMap, map_eq_ok, readEntries_perm order distinct]
  | object attributes => simp only [readMap_object_eq_ok, readEntries_perm order distinct]
  | _ => rfl

/-- Two ways of reading give the same values. -/
def SameValues (first second : Ty → Decoded Value) : Prop :=
  ∀ ty value, second ty = .ok value ↔ first ty = .ok value

theorem toOption_eq_of_same {ε α : Type} {first second : Except ε α}
    (same : ∀ value, second = .ok value ↔ first = .ok value) :
    second.toOption = first.toOption := by
  cases first with
  | ok value => rw [(same value).mpr rfl]
  | error e =>
      cases second with
      | ok value => cases (same value).mp rfl
      | error other => rfl

theorem entryOf?_congr {pair other : MsgPack × (Ty → Decoded Value)}
    (text : other.1.asText? = pair.1.asText?) (same : SameValues pair.2 other.2) :
    entryOf? typeOf other = entryOf? typeOf pair := by
  have results (ty : Ty) : (other.2 ty).toOption = (pair.2 ty).toOption :=
    toOption_eq_of_same (same ty)
  simp only [entryOf?, text, results]

/-- A map is read alike with other pairs that have the same names and values. -/
theorem readMap_congr {α : Type} {moves : List α}
    {before after : α → MsgPack × (Ty → Decoded Value)}
    (texts : ∀ move ∈ moves, (after move).1.asText? = (before move).1.asText?)
    (values : ∀ move ∈ moves, SameValues (before move).2 (after move).2) (value : Value) :
    readMap ty (moves.map after) = .ok value ↔ readMap ty (moves.map before) = .ok value := by
  have entries (typeOf : String → Option Ty) (results : List (String × Value)) :
      readEntries ty typeOf [] (moves.map after) = .ok results ↔
        readEntries ty typeOf [] (moves.map before) = .ok results := by
    have same : ∀ move ∈ moves, entryOf? typeOf (after move) = entryOf? typeOf (before move) :=
      fun move member => entryOf?_congr (texts move member) (values move member)
    have all : moves.filterMap (entryOf? typeOf ∘ after) =
        moves.filterMap (entryOf? typeOf ∘ before) := List.filterMap_congr same
    have there : (∀ move ∈ moves, (entryOf? typeOf (after move)).isSome) ↔
        ∀ move ∈ moves, (entryOf? typeOf (before move)).isSome :=
      forall₂_congr fun move member => by rw [same move member]
    simp only [readEntries_eq_ok, List.forall_mem_map, List.filterMap_map, all, there]
  cases ty with
  | map element => simp only [readMap, map_eq_ok, entries]
  | object attributes => simp only [readMap_object_eq_ok, entries]
  | _ => rfl

/-- Items that give the same values are read alike at any places. -/
theorem zipWith_congr {moves : List (MsgPack × MsgPack)}
    (same : ∀ move ∈ moves, SameValues (read move.1) (read move.2)) (types : List Ty)
    (values : List Value) :
    List.zipWith read (moves.map Prod.snd) types = values.map .ok ↔
      List.zipWith read (moves.map Prod.fst) types = values.map .ok := by
  induction moves generalizing types values with
  | nil => rfl
  | cons move rest ih =>
      rw [List.forall_mem_cons] at same
      cases types with
      | nil => rfl
      | cons type types =>
          cases values with
          | nil => simp
          | cons value values =>
              simp only [List.map_cons, List.zipWith_cons_cons, List.cons.injEq, same.1 type value,
                ih same.2 types values]

theorem readArray_congr {moves : List (MsgPack × MsgPack)}
    (same : ∀ move ∈ moves, SameValues (read move.1) (read move.2)) (value : Value) :
    readArray ty ((moves.map Prod.snd).map read) = .ok value ↔
      readArray ty ((moves.map Prod.fst).map read) = .ok value := by
  simp only [readArray_eq_ok, List.length_map, zipWith_congr same]

/-- Under a dynamic type only the value behind the notation counts. -/
theorem read_dynamic_congr {moves : List (MsgPack × MsgPack)}
    (noted : ∀ move ∈ moves, declaredType move.2 = declaredType move.1)
    (same : ∀ move ∈ moves, SameValues (read move.1) (read move.2)) (value : Value) :
    read (.array (moves.map Prod.snd)) .dynamic = .ok value ↔
      read (.array (moves.map Prod.fst)) .dynamic = .ok value := by
  rcases moves with _ | ⟨first, _ | ⟨second, _ | ⟨more, rest⟩⟩⟩
  · rfl
  · rfl
  · simp only [List.map_cons, List.map_nil, read, noted first (by simp)]
    cases declaredType first.1 with
    | error failure => rfl
    | ok ty => exact same second (by simp) ty value
  · rfl

/-- In whatever order the pairs of maps are, the same values are read. -/
theorem read_reordered {raw other : MsgPack} (distinct : raw.Distinct)
    (reordered : raw.Reordered other) : SameValues (read raw) (read other) := by
  induction reordered with
  | refl => exact fun ty value => Iff.rfl
  | @array moves inside ih =>
      have itemsDistinct := (MsgPack.distinct_iff.mp distinct).2
      have same : ∀ move ∈ moves, SameValues (read move.1) (read move.2) :=
        fun move member => ih move member (itemsDistinct move.1 (List.mem_map_of_mem member))
      intro ty value
      by_cases untyped : ty = .dynamic
      · subst untyped
        exact read_dynamic_congr (fun move member => declaredType_of_reordered (inside move member))
          same value
      · rw [read_array untyped, read_array untyped]
        exact readArray_congr same value
  | @map moves others order keys _ _ ih =>
      obtain ⟨keysDiffer, partsDistinct⟩ := MsgPack.distinct_iff.mp distinct
      have same : ∀ move ∈ moves, SameValues (read move.1.2) (read move.2.2) := by
        intro move member
        apply ih move member
        apply partsDistinct
        rw [MsgPack.children, List.mem_flatMap]
        exact ⟨move.1, List.mem_map_of_mem member, by simp⟩
      let before (move : (MsgPack × MsgPack) × (MsgPack × MsgPack)) := (move.1.1, read move.1.2)
      let after (move : (MsgPack × MsgPack) × (MsgPack × MsgPack)) := (move.2.1, read move.2.2)
      have different : ((moves.map before).map Prod.fst).Nodup := by
        rw [MsgPack.KeysDiffer, List.map_map] at keysDiffer
        rwa [List.map_map]
      intro ty value
      rw [read, read, pairReaders_eq, pairReaders_eq, List.map_map, List.map_map]
      -- first the pairs are replaced where they are, then they are put in their old order
      calc readMap ty (others.map after) = .ok value
          ↔ readMap ty (others.map before) = .ok value :=
            readMap_congr (fun move member => (keys move (order.mem_iff.mp member)).asText?_eq)
              (fun move member => same move (order.mem_iff.mp member)) value
        _ ↔ readMap ty (moves.map before) = .ok value :=
            readMap_perm (order.map before) different value

/-- In whatever order the pairs of maps come, at any depth, a document is read as the same value or
not at all, if no key stands twice in a map. -/
theorem read_in_any_order {raw other : MsgPack} (distinct : raw.Distinct)
    (reordered : raw.Reordered other) (ty : Ty) :
    (∃ value, read raw ty = .ok value ∧ read other ty = .ok value) ∨
      ∃ failure failure', read raw ty = .error failure ∧ read other ty = .error failure' := by
  have same := read_reordered distinct reordered ty
  cases first : read raw ty with
  | ok value =>
      have second := (same value).mpr first
      exact .inl ⟨value, rfl, second⟩
  | error failure =>
      cases second : read other ty with
      | ok value =>
          have found := (same value).mp second
          rw [first] at found
          cases found
      | error failure' => exact .inr ⟨failure, failure', rfl, rfl⟩

/-- An object whose attributes come in another order, and a map inside it as well. -/
theorem read_in_any_order_nested :
    let ty := Ty.object [("a", .map .bool), ("b", .number)]
    let x := (MsgPack.ofText "x", MsgPack.bool true)
    let y := (MsgPack.ofText "y", MsgPack.nil)
    let raw := MsgPack.map [(.ofText "b", .integer 1), (.ofText "a", .map [x, y])]
    let other := MsgPack.map [(.ofText "a", .map [y, x]), (.ofText "b", .integer 1)]
    raw.Distinct ∧ raw.Reordered other ∧
      ∃ value, read raw ty = .ok value ∧ read other ty = .ok value := by
  intro ty x y raw other
  have outerNames : utf8 "b" ≠ utf8 "a" := by decide
  have innerNames : utf8 "x" ≠ utf8 "y" := by decide
  have distinct : raw.Distinct := by
    simp [MsgPack.Distinct, raw, x, y, MsgPack.parts, MsgPack.partsOfPairs, MsgPack.ofText,
      MsgPack.KeysDiffer, outerNames, innerNames]
  have inside : MsgPack.Reordered (.map [x, y]) (.map [y, x]) :=
    @MsgPack.Reordered.map [(x, x), (y, y)] [(y, y), (x, x)] (.swap _ _ _)
      (by simp [MsgPack.Reordered.refl]) (by simp [MsgPack.Reordered.refl])
  have reordered : raw.Reordered other :=
    @MsgPack.Reordered.map
      [((.ofText "b", .integer 1), (.ofText "b", .integer 1)),
        ((.ofText "a", .map [x, y]), (.ofText "a", .map [y, x]))] _ (.swap _ _ _)
      (by simp [MsgPack.Reordered.refl]) (by simpa [MsgPack.Reordered.refl] using inside)
  have done : read raw ty =
      .ok (.object [("a", .map [("x", .bool true), ("y", .null)]), ("b", .ofInt 1)]) := by rfl
  refine ⟨distinct, reordered, ?_⟩
  rcases read_in_any_order distinct reordered ty with both | ⟨failure, -, failed, -⟩
  · exact both
  · rw [done] at failed
    cases failed

end Wire.Binary

end ScriptHost
