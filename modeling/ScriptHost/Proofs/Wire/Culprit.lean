import ScriptHost.Proofs.Wire.Limits
import ScriptHost.Proofs.Wire.TextPlaces

set_option autoImplicit false

namespace ScriptHost.Wire

section Way

variable {α δ : Type}

/-- A part stands at a position, and all parts before it are done. -/
structure FirstAt (done : α → Prop) (parts : List α) (position : Nat) (part : α) : Prop where
  here : parts[position]? = some part
  before : ∀ earlier ∈ parts.take position, done earlier

variable {done : α → Prop} {parts : List α} {first part : α} {position : Nat}

theorem FirstAt.head : FirstAt done (part :: parts) 0 part where
  here := rfl
  before := by simp

theorem FirstAt.cons (passed : done first) (behind : FirstAt done parts position part) :
    FirstAt done (first :: parts) (position + 1) part where
  here := behind.here
  before := by
    rw [List.take_succ_cons, List.forall_mem_cons]
    exact ⟨passed, behind.before⟩

theorem FirstAt.mem (found : FirstAt done parts position part) : part ∈ parts :=
  List.mem_of_getElem? found.here

/-- A way from a document under its type down to a part under its own. Each stage is a step of the
path, or leaves no trace in it. -/
inductive Leads (down : δ → Ty → Option Step → δ → Ty → Prop) : δ → Ty → List Step → δ → Ty → Prop
  | here (raw : δ) (ty : Ty) : Leads down raw ty [] raw ty
  | further {raw inner last : δ} {ty type lastTy : Ty} {step : Option Step} {path : List Step}
      (stage : down raw ty step inner type) (rest : Leads down inner type path last lastTy) :
      Leads down raw ty (step.toList ++ path) last lastTy

variable (read : δ → Ty → Decoded Value) (down : δ → Ty → Option Step → δ → Ty → Prop)

/-- A failure concerns the document itself, or it is the failure of a part one stage below. -/
def Blames (raw : δ) (ty : Ty) (failure : Located DecodeCause) : Prop :=
  failure.path = [] ∨ ∃ step inner type path, down raw ty step inner type ∧
    failure.path = step.toList ++ path ∧ read inner type = .error ⟨path, failure.cause⟩

variable {read down}

theorem blames_refuse {raw : δ} {ty : Ty} {cause : DecodeCause} {failure : Located DecodeCause}
    (failed : (refuse cause : Decoded Value) = .error failure) :
    Blames read down raw ty failure := by
  cases failed
  exact .inl rfl

/-- Where each failure is passed on from one stage below, its path leads to the part that fails. -/
theorem exists_leads {size : δ → Nat}
    (smaller : ∀ raw ty step inner type, down raw ty step inner type → size inner < size raw)
    (passed : ∀ raw ty failure, read raw ty = .error failure → Blames read down raw ty failure)
    {raw : δ} {ty : Ty} {failure : Located DecodeCause} (failed : read raw ty = .error failure) :
    ∃ last lastTy, Leads down raw ty failure.path last lastTy ∧
      read last lastTy = .error ⟨[], failure.cause⟩ := by
  -- the induction is on the size of the document, and each stage goes down to a smaller one
  induction bound : size raw using Nat.strong_induction_on generalizing raw ty failure with
  | _ most ih =>
      obtain ⟨path, cause⟩ := failure
      rcases passed raw ty _ failed with rfl | ⟨step, inner, type, rest, stage, rfl, deeper⟩
      · exact ⟨raw, ty, .here raw ty, failed⟩
      · have less : size inner < most := bound ▸ smaller raw ty step inner type stage
        obtain ⟨last, lastTy, leads, stands⟩ := ih (size inner) less deeper rfl
        exact ⟨last, lastTy, .further stage leads, stands⟩

/-- The item at a position has a type, and all items before it are read. -/
def ItemAt (read : δ → Ty → Decoded Value) (items : List δ) (ty : Ty) (position : Nat) (item : δ)
    (type : Ty) : Prop :=
  ∃ types, ty.itemTypes? items.length = some types ∧
    FirstAt (fun place => ∃ value, read place.1 place.2 = .ok value) (items.zip types) position
      (item, type)

theorem ItemAt.mem {items : List δ} {ty type : Ty} {position : Nat} {item : δ}
    (found : ItemAt read items ty position item type) : item ∈ items := by
  obtain ⟨types, -, first⟩ := found
  exact (List.of_mem_zip first.mem).1

end Way

section Container

variable {α β τ ε : Type} {failure : Located ε}

theorem under_eq_error {step : Step} {outcome : Except (Located ε) α} :
    under step outcome = .error failure ↔
      ∃ inner, outcome = .error inner ∧ ⟨step :: inner.path, inner.cause⟩ = failure := by
  cases outcome <;> simp [under]

/-- The first item that fails is reported with its position. -/
theorem exists_of_collect_error {reader : α → τ → Except (Located ε) β} {items : List α}
    {types : List τ} {start : Nat}
    (failed : collect start (List.zipWith reader items types) = .error failure) :
    ∃ position item type inner,
      FirstAt (fun place => ∃ result, reader place.1 place.2 = .ok result) (items.zip types)
        position (item, type) ∧
      reader item type = .error inner ∧
      failure = ⟨.index (start + position) :: inner.path, inner.cause⟩ := by
  induction items generalizing types start with
  | nil => cases failed
  | cons item items ih =>
      cases types with
      | nil => cases failed
      | cons type types =>
          rw [List.zipWith_cons_cons, collect] at failed
          cases outcome : under (.index start) (reader item type) with
          | error located =>
              simp only [outcome, Except.error.injEq] at failed
              subst failed
              obtain ⟨inner, stands, rfl⟩ := under_eq_error.mp outcome
              exact ⟨0, item, type, inner, .head, stands, rfl⟩
          | ok result =>
              simp only [outcome, map_eq_error] at failed
              obtain ⟨position, later, laterType, inner, first, stands, rfl⟩ := ih failed
              have passed : ∃ result, reader item type = .ok result :=
                ⟨result, under_eq_ok.mp outcome⟩
              refine ⟨position + 1, later, laterType, inner, first.cons passed, stands, ?_⟩
              rw [Nat.add_assoc, Nat.add_comm 1]

/-- An array fails where it stands or at its first item that fails. -/
theorem blames_items {δ : Type} {read : δ → Ty → Decoded Value}
    {down : δ → Ty → Option Step → δ → Ty → Prop} {raw : δ} {items : List δ} {ty : Ty}
    {failure : Located DecodeCause}
    (stage : ∀ position item type, ItemAt read items ty position item type →
      down raw ty (some (.index position)) item type)
    (failed : readArray ty (items.map read) = .error failure) :
    Blames read down raw ty failure := by
  cases places : ty.itemTypes? items.length with
  | none =>
      obtain ⟨cause, refused⟩ : ∃ cause, readArray ty (items.map read) = refuse cause :=
        readArray_of_misfit places
      exact blames_refuse (refused.symm.trans failed)
  | some types =>
      rw [readArray_eq_collect places, map_eq_error] at failed
      obtain ⟨position, item, type, inner, first, stands, rfl⟩ := exists_of_collect_error failed
      rw [Nat.zero_add]
      have further := stage position item type ⟨types, places, first⟩
      exact .inr ⟨some (.index position), item, type, inner.path, further, rfl, stands⟩

/-- The first entry that fails is reported with its name. -/
theorem exists_of_collectNamed_error {reader : α → Except (Located ε) β}
    {entries : List (String × α)}
    (failed : collectNamed (entries.map fun entry => (entry.1, reader entry.2)) = .error failure) :
    ∃ position name item inner,
      FirstAt (fun entry => ∃ result, reader entry.2 = .ok result) entries position (name, item) ∧
      reader item = .error inner ∧ failure = ⟨.name name :: inner.path, inner.cause⟩ := by
  induction entries with
  | nil => cases failed
  | cons entry entries ih =>
      obtain ⟨name, item⟩ := entry
      rw [List.map_cons, collectNamed] at failed
      cases outcome : under (.name name) (reader item) with
      | error located =>
          simp only [outcome, Except.error.injEq] at failed
          subst failed
          obtain ⟨inner, stands, rfl⟩ := under_eq_error.mp outcome
          exact ⟨0, name, item, inner, .head, stands, rfl⟩
      | ok result =>
          simp only [outcome, map_eq_error] at failed
          obtain ⟨position, other, later, inner, first, stands, rfl⟩ := ih failed
          have passed := under_eq_ok.mp outcome
          exact ⟨position + 1, other, later, inner, first.cons ⟨result, passed⟩, stands, rfl⟩

end Container

namespace Binary

/-- An entry has a name to which a type belongs, and is read under it. -/
def EntryRead (typeOf : String → Option Ty) (pair : MsgPack × MsgPack) : Prop :=
  ∃ name type value, pair.1.asText? = some name ∧ typeOf name = some type ∧
    read pair.2 type = .ok value

/-- One stage down: to the value of a dynamic pair, to an item or to an entry. -/
inductive Down : MsgPack → Ty → Option Step → MsgPack → Ty → Prop
  | dynamic {noted inner : MsgPack} {ty : Ty} (declared : declaredType noted = .ok ty) :
      Down (.array [noted, inner]) .dynamic none inner ty
  | item {items : List MsgPack} {item : MsgPack} {ty type : Ty} {position : Nat}
      (found : ItemAt read items ty position item type) :
      Down (.array items) ty (some (.index position)) item type
  | entry {pairs : List (MsgPack × MsgPack)} {key item : MsgPack} {ty type : Ty} {name : String}
      {position : Nat} (text : key.asText? = some name) (typed : ty.entryType? name = some type)
      (found : FirstAt (EntryRead fun name => ty.entryType? name) pairs position (key, item)) :
      Down (.map pairs) ty (some (.name name)) item type

theorem nesting_lt_of_down (raw : MsgPack) (ty : Ty) (step : Option Step) (inner : MsgPack)
    (type : Ty) (stage : Down raw ty step inner type) : inner.nesting < raw.nesting := by
  cases stage with
  | dynamic =>
      simp only [MsgPack.nesting, MsgPack.nestingOfItems]
      omega
  | item found =>
      have inside := MsgPack.nestingOfItems_le_iff.mp (Nat.le_refl _) _ found.mem
      rw [MsgPack.nesting]
      omega
  | entry _ _ found =>
      have inside := (MsgPack.nestingOfPairs_le_iff.mp (Nat.le_refl _) _ found.mem).2
      simp only [MsgPack.nesting] at inside ⊢
      omega

theorem refuse_of_readScalar {raw : MsgPack} {ty : Ty} {failure : Located DecodeCause}
    (failed : readScalar raw ty = .error failure) :
    ∃ cause, (refuse cause : Decoded Value) = .error failure := by
  unfold readScalar at failed
  split at failed
  · exact ⟨_, failed⟩
  · cases failed
  · split at failed
    · cases failed
    · exact ⟨_, failed⟩
  · split at failed
    · cases failed
    · exact ⟨_, failed⟩
  · exact ⟨_, failed⟩

theorem path_of_declaredType {noted : MsgPack} {failure : Located DecodeCause}
    (failed : declaredType noted = .error failure) : failure.path = [] := by
  unfold declaredType at failed
  split at failed
  · split at failed <;> cases failed <;> rfl
  · split at failed <;> cases failed <;> rfl
  · cases failed
    rfl

theorem blames_dynamic {items : List MsgPack} {failure : Located DecodeCause}
    (failed : read (.array items) .dynamic = .error failure) :
    Blames read Down (.array items) .dynamic failure := by
  rcases items with _ | ⟨noted, _ | ⟨inner, _ | ⟨more, rest⟩⟩⟩
  · exact blames_refuse failed
  · exact blames_refuse failed
  · rw [read] at failed
    cases declared : declaredType noted with
    | error located =>
        simp only [declared, Except.error.injEq] at failed
        subst failed
        exact .inl (path_of_declaredType declared)
    | ok ty =>
        simp only [declared] at failed
        exact .inr ⟨none, inner, ty, failure.path, .dynamic declared, rfl, failed⟩
  · exact blames_refuse failed

/-- What is wrong with a key or a name concerns the map; else the first entry that fails is
reported with its name. -/
theorem exists_of_readEntries_error {ty : Ty} {typeOf : String → Option Ty}
    {pairs : List (MsgPack × MsgPack)} {before : List (String × Value)}
    {failure : Located DecodeCause}
    (failed : readEntries ty typeOf before (pairs.map fun pair => (pair.1, read pair.2)) =
      .error failure) :
    failure.path = [] ∨ ∃ position key item name type inner,
      FirstAt (EntryRead typeOf) pairs position (key, item) ∧ key.asText? = some name ∧
        typeOf name = some type ∧ read item type = .error inner ∧
          failure = ⟨.name name :: inner.path, inner.cause⟩ := by
  induction pairs generalizing before with
  | nil => cases failed
  | cons pair pairs ih =>
      obtain ⟨key, item⟩ := pair
      rw [List.map_cons, readEntries] at failed
      cases text : key.asText? with
      | none =>
          simp only [text, refuse, Except.error.injEq] at failed
          exact .inl (failed ▸ rfl)
      | some name =>
          cases typed : typeOf name with
          | none =>
              simp only [text, typed, refuse, Except.error.injEq] at failed
              exact .inl (failed ▸ rfl)
          | some type =>
              cases outcome : under (.name name) (read item type) with
              | error located =>
                  simp only [text, typed, outcome, Except.error.injEq] at failed
                  subst failed
                  obtain ⟨inner, stands, rfl⟩ := under_eq_error.mp outcome
                  exact .inr ⟨0, key, item, name, type, inner, .head, text, typed, stands, rfl⟩
              | ok value =>
                  simp only [text, typed, outcome] at failed
                  have passed : EntryRead typeOf (key, item) :=
                    ⟨name, type, value, text, typed, under_eq_ok.mp outcome⟩
                  rcases ih failed with
                    here | ⟨position, key, item, name, type, inner, first, later⟩
                  · exact .inl here
                  · have further := first.cons passed
                    exact .inr ⟨position + 1, key, item, name, type, inner, further, later⟩

theorem blames_map {pairs : List (MsgPack × MsgPack)} {ty : Ty} {failure : Located DecodeCause}
    (failed : readMap ty (pairReaders pairs) = .error failure) :
    Blames read Down (.map pairs) ty failure := by
  rw [pairReaders_eq] at failed
  have entries (entriesFailed : readEntries ty (fun name => ty.entryType? name) []
      (pairs.map fun pair => (pair.1, read pair.2)) = .error failure) :
      Blames read Down (.map pairs) ty failure := by
    rcases exists_of_readEntries_error entriesFailed with
      here | ⟨position, key, item, name, type, inner, first, text, typed, stands, rfl⟩
    · exact .inl here
    · exact .inr ⟨some (.name name), item, type, inner.path, .entry text typed first, rfl, stands⟩
  cases ty with
  | map element =>
      rw [readMap, map_eq_error] at failed
      exact entries failed
  | object attributes =>
      rw [readMap] at failed
      cases outcome : readEntries (.object attributes) (Dict.get? attributes) []
          (pairs.map fun pair => (pair.1, read pair.2)) with
      | error located =>
          simp only [outcome, Except.error.injEq] at failed
          exact entries (failed ▸ outcome)
      | ok results =>
          -- an attribute without an entry concerns the map
          simp only [outcome, complete] at failed
          split at failed
          · exact blames_refuse failed
          · cases failed
  | _ => exact blames_refuse failed

/-- A failure is passed on from one stage below, or arises where it is. -/
theorem blames_read (raw : MsgPack) (ty : Ty) (failure : Located DecodeCause)
    (failed : read raw ty = .error failure) : Blames read Down raw ty failure := by
  cases raw with
  | nil | extension => cases failed
  | array items =>
      by_cases untyped : ty = .dynamic
      · subst untyped
        exact blames_dynamic failed
      · rw [read_array untyped] at failed
        exact blames_items (fun _ _ _ found => .item found) failed
  | map pairs => exact blames_map failed
  | _ =>
      obtain ⟨cause, refused⟩ := refuse_of_readScalar failed
      exact blames_refuse refused

end Binary

namespace Text

/-- There is a field for an attribute, and it is read under the attribute's type. -/
def AttributeRead (fields : List (String × Json)) (declared : String × Ty) : Prop :=
  ∃ item value, Dict.get? fields declared.1 = some item ∧ read item declared.2 = .ok value

/-- One stage down: to the value in a dynamic object, to an item, to a field of a map or to the
field of an attribute. -/
inductive Down : Json → Ty → Option Step → Json → Ty → Prop
  | dynamic {fields : List (String × Json)} {noted inner : Json} {ty : Ty}
      (type : Dict.get? fields "type" = some noted) (value : Dict.get? fields "value" = some inner)
      (declared : declaredType noted = .ok ty) : Down (.object fields) .dynamic none inner ty
  | item {items : List Json} {item : Json} {ty type : Ty} {position : Nat}
      (found : ItemAt read items ty position item type) :
      Down (.array items) ty (some (.index position)) item type
  | field {fields : List (String × Json)} {item : Json} {element : Ty} {name : String}
      {position : Nat}
      (found : FirstAt (fun field => ∃ value, read field.2 element = .ok value) fields position
        (name, item)) :
      Down (.object fields) (.map element) (some (.name name)) item element
  | declared {fields : List (String × Json)} {attributes : List (String × Ty)} {item : Json}
      {type : Ty} {name : String} {position : Nat} (there : Dict.get? fields name = some item)
      (found : FirstAt (AttributeRead fields) attributes position (name, type)) :
      Down (.object fields) (.object attributes) (some (.name name)) item type

theorem depth_lt_of_down (raw : Json) (ty : Ty) (step : Option Step) (inner : Json) (type : Ty)
    (stage : Down raw ty step inner type) : inner.depth < raw.depth := by
  cases stage with
  | dynamic _ value => exact Json.depth_field_lt (Dict.mem_of_get? value)
  | item found => exact Json.depth_item_lt found.mem
  | field found => exact Json.depth_field_lt found.mem
  | declared there => exact Json.depth_field_lt (Dict.mem_of_get? there)

theorem refuse_of_readScalar {raw : Json} {ty : Ty} {failure : Located DecodeCause}
    (failed : readScalar raw ty = .error failure) :
    ∃ cause, (refuse cause : Decoded Value) = .error failure := by
  unfold readScalar at failed
  split at failed
  · exact ⟨_, failed⟩
  · cases failed
  · cases failed
  · cases failed
  · split at failed
    · cases failed
    · exact ⟨_, failed⟩
  · cases failed
  · exact ⟨_, failed⟩

theorem blames_dynamic {fields : List (String × Json)} {failure : Located DecodeCause}
    (failed : read (.object fields) .dynamic = .error failure) :
    Blames read Down (.object fields) .dynamic failure := by
  rw [read, fieldReaders_eq, Dict.get?_map] at failed
  cases type : Dict.get? fields "type" with
  | none =>
      simp only [type, readDynamic] at failed
      exact blames_refuse failed
  | some noted =>
      cases value : Dict.get? fields "value" with
      | none =>
          simp only [type, value, Option.map_none, readDynamic] at failed
          exact blames_refuse failed
      | some inner =>
          simp only [type, value, Option.map_some, readDynamic] at failed
          cases declared : declaredType noted with
          | error located =>
              simp only [declared, Except.error.injEq] at failed
              subst failed
              unfold declaredType at declared
              split at declared <;> cases declared <;> exact .inl rfl
          | ok ty =>
              simp only [declared] at failed
              exact .inr ⟨none, inner, ty, failure.path, .dynamic type value declared, rfl, failed⟩

/-- An attribute without a field concerns the object; else the first attribute that fails is
reported with its name. -/
theorem exists_of_readAttributes_error {fields : List (String × Json)}
    {attributes : List (String × Ty)} {failure : Located DecodeCause}
    (failed : readAttributes (fieldReaders fields) attributes = .error failure) :
    failure.path = [] ∨ ∃ position name type item inner, Dict.get? fields name = some item ∧
      FirstAt (AttributeRead fields) attributes position (name, type) ∧
        read item type = .error inner ∧ failure = ⟨.name name :: inner.path, inner.cause⟩ := by
  induction attributes with
  | nil => cases failed
  | cons first rest ih =>
      obtain ⟨name, type⟩ := first
      rw [readAttributes, fieldReaders_eq, Dict.get?_map, ← fieldReaders_eq] at failed
      cases there : Dict.get? fields name with
      | none =>
          simp only [there, Option.map_none, refuse, Except.error.injEq] at failed
          exact .inl (failed ▸ rfl)
      | some item =>
          simp only [there, Option.map_some] at failed
          cases outcome : under (.name name) (read item type) with
          | error located =>
              simp only [outcome, Except.error.injEq] at failed
              subst failed
              obtain ⟨inner, stands, rfl⟩ := under_eq_error.mp outcome
              exact .inr ⟨0, name, type, item, inner, there, .head, stands, rfl⟩
          | ok value =>
              simp only [outcome, map_eq_error] at failed
              have passed : AttributeRead fields (name, type) :=
                ⟨item, value, there, under_eq_ok.mp outcome⟩
              rcases ih failed with here | ⟨position, name, type, item, inner, held, first, later⟩
              · exact .inl here
              · exact .inr ⟨position + 1, name, type, item, inner, held, first.cons passed, later⟩

theorem blames_object {fields : List (String × Json)} {ty : Ty} {failure : Located DecodeCause}
    (failed : readObject ty (fieldReaders fields) = .error failure) :
    Blames read Down (.object fields) ty failure := by
  cases ty with
  | map element =>
      rw [readObject, fieldReaders_eq, List.map_map, map_eq_error] at failed
      obtain ⟨position, name, item, inner, first, stands, rfl⟩ :=
        @exists_of_collectNamed_error _ _ _ _ (fun raw => read raw element) _ failed
      exact .inr ⟨some (.name name), item, element, inner.path, .field first, rfl, stands⟩
  | object attributes =>
      rw [readObject] at failed
      split at failed
      · exact blames_refuse failed
      · rw [map_eq_error] at failed
        rcases exists_of_readAttributes_error failed with
          here | ⟨position, name, type, item, inner, there, first, stands, rfl⟩
        · exact .inl here
        · exact .inr ⟨some (.name name), item, type, inner.path, .declared there first, rfl, stands⟩
  | _ => exact blames_refuse failed

/-- A failure is passed on from one stage below, or arises where it is. -/
theorem blames_read (raw : Json) (ty : Ty) (failure : Located DecodeCause)
    (failed : read raw ty = .error failure) : Blames read Down raw ty failure := by
  cases raw with
  | null => cases failed
  | array items =>
      by_cases untyped : ty = .dynamic
      · subst untyped
        exact blames_refuse failed
      · rw [read_array untyped] at failed
        exact blames_items (fun _ _ _ found => .item found) failed
  | object fields =>
      by_cases untyped : ty = .dynamic
      · subst untyped
        exact blames_dynamic failed
      · rw [read_object untyped] at failed
        exact blames_object failed
  | _ =>
      obtain ⟨cause, refused⟩ := refuse_of_readScalar failed
      exact blames_refuse refused

end Text

/-- Reading fails at a path, for a reason in words. -/
def FailsWith (format : Format) (outcome : Decoded Value) (path detail : String) : Prop :=
  outcome.mapError (Error.ofDecode format) = .error (Error.decode format path detail)

theorem failsWith_iff {format : Format} {outcome : Decoded Value} {path detail : String} :
    FailsWith format outcome path detail ↔
      ∃ failure, outcome = .error failure ∧ pathText failure.path = path ∧
        failure.cause.message = detail := by
  simp [FailsWith, mapError_eq_error, Error.ofDecode]

/-- Where reading a document of either form fails, the path that is reported leads through its
containers to a part of which reading fails at no further path and for the same reason; and what
comes before it in each container is read. -/
theorem exists_culprit :
    (∀ (raw : MsgPack) (ty : Ty) (path detail : String),
      FailsWith .binary (Binary.read raw ty) path detail →
        ∃ steps part type, Leads Binary.Down raw ty steps part type ∧ pathText steps = path ∧
          FailsWith .binary (Binary.read part type) "" detail) ∧
    (∀ (raw : Json) (ty : Ty) (path detail : String),
      FailsWith .text (Text.read raw ty) path detail →
        ∃ steps part type, Leads Text.Down raw ty steps part type ∧ pathText steps = path ∧
          FailsWith .text (Text.read part type) "" detail) := by
  constructor
  · intro raw ty path detail fails
    obtain ⟨failure, failed, rfl, rfl⟩ := failsWith_iff.mp fails
    obtain ⟨part, type, leads, stands⟩ :=
      exists_leads Binary.nesting_lt_of_down Binary.blames_read failed
    exact ⟨failure.path, part, type, leads, rfl, failsWith_iff.mpr ⟨_, stands, rfl, rfl⟩⟩
  · intro raw ty path detail fails
    obtain ⟨failure, failed, rfl, rfl⟩ := failsWith_iff.mp fails
    obtain ⟨part, type, leads, stands⟩ :=
      exists_leads Text.depth_lt_of_down Text.blames_read failed
    exact ⟨failure.path, part, type, leads, rfl, failsWith_iff.mpr ⟨_, stands, rfl, rfl⟩⟩

/-- A number that calls itself a truth value, in a map in a list, in either form. -/
theorem exists_culprit_nested :
    let ty := Ty.list (.map .dynamic)
    let raw := MsgPack.array [.nil, .map [(.ofText "a", .nil),
      (.ofText "b", .array [.ofText "\"bool\"", .integer 1])]]
    let document := Json.array [.null, .object [("a", .null),
      ("b", .object [("type", .string "bool"), ("value", .integer 1)])]]
    (FailsWith .binary (Binary.read raw ty) "[1].b" "bool required, got number" ∧
      ∃ steps part type, Leads Binary.Down raw ty steps part type ∧ pathText steps = "[1].b" ∧
        FailsWith .binary (Binary.read part type) "" "bool required, got number") ∧
    (FailsWith .text (Text.read document ty) "[1].b" "bool required, got number" ∧
      ∃ steps part type, Leads Text.Down document ty steps part type ∧ pathText steps = "[1].b" ∧
        FailsWith .text (Text.read part type) "" "bool required, got number") := by
  intro ty raw document
  have binary : FailsWith .binary (Binary.read raw ty) "[1].b" "bool required, got number" := by
    rfl
  have text : FailsWith .text (Text.read document ty) "[1].b" "bool required, got number" := by
    rfl
  exact ⟨⟨binary, exists_culprit.1 raw ty _ _ binary⟩,
    ⟨text, exists_culprit.2 document ty _ _ text⟩⟩

end ScriptHost.Wire
