import ScriptHost.Dict
import ScriptHost.Json.Basic
import ScriptHost.MsgPack.Basic
import ScriptHost.Value.Basic

set_option autoImplicit false

/- The parts of a tree: the tree itself and all that stands inside it, at any depth. What is said of
"anything inside" a type, a value or a document is said of its parts. Each kind of tree has an
induction that hands out the hypothesis for every child of a node. -/
namespace ScriptHost

/-- A function that goes through a list item by item maps the list. -/
theorem eq_map_of_cons {α β : Type} {through : List α → List β} {f : α → β}
    (nil : through [] = []) (cons : ∀ item rest, through (item :: rest) = f item :: through rest)
    (items : List α) : through items = items.map f := by
  induction items with
  | nil => exact nil
  | cons item rest ih => rw [cons, ih, List.map_cons]

namespace Ty

/-- Induction on types, with the hypothesis for every element and every attribute. -/
@[induction_eliminator]
theorem inductionOn {P : Ty → Prop}
    (dynamic : P dynamic) (bool : P bool) (number : P number) (string : P string)
    (list : ∀ element, P element → P (list element))
    (set : ∀ element, P element → P (set element))
    (map : ∀ element, P element → P (map element))
    (object : ∀ attributes : List (String × Ty),
      (∀ field ∈ attributes, P field.2) → P (object attributes))
    (tuple : ∀ elements : List Ty, (∀ element ∈ elements, P element) → P (tuple elements))
    (ty : Ty) : P ty :=
  Ty.rec (motive_1 := P)
    (motive_2 := fun attributes => ∀ field ∈ attributes, P field.2)
    (motive_3 := fun elements => ∀ element ∈ elements, P element)
    (motive_4 := fun field => P field.2)
    dynamic bool number string list set map object tuple
    (List.forall_mem_nil _) (fun _ _ head tail => List.forall_mem_cons.mpr ⟨head, tail⟩)
    (List.forall_mem_nil _) (fun _ _ head tail => List.forall_mem_cons.mpr ⟨head, tail⟩)
    (fun _ _ ih => ih) ty

mutual

/-- A type and the types inside it. -/
def parts : Ty → List Ty
  | list element => list element :: element.parts
  | set element => set element :: element.parts
  | map element => map element :: element.parts
  | object attributes => object attributes :: partsOfAttributes attributes
  | tuple elements => tuple elements :: partsOfElements elements
  | primitive => [primitive]

def partsOfElements : List Ty → List Ty
  | [] => []
  | element :: rest => element.parts ++ partsOfElements rest

def partsOfAttributes : List (String × Ty) → List Ty
  | [] => []
  | (_, ty) :: rest => ty.parts ++ partsOfAttributes rest

end

/-- The types right below a type. -/
def children : Ty → List Ty
  | list element | set element | map element => [element]
  | object attributes => attributes.map Prod.snd
  | tuple elements => elements
  | _ => []

theorem partsOfElements_eq (elements : List Ty) :
    partsOfElements elements = elements.flatMap parts := by
  induction elements with
  | nil => rfl
  | cons element rest ih => rw [partsOfElements, ih, List.flatMap_cons]

theorem partsOfAttributes_eq (attributes : List (String × Ty)) :
    partsOfAttributes attributes = attributes.flatMap fun field => field.2.parts := by
  induction attributes with
  | nil => rfl
  | cons field rest ih => rw [partsOfAttributes, ih, List.flatMap_cons]

theorem parts_eq (ty : Ty) : ty.parts = ty :: ty.children.flatMap parts := by
  cases ty <;> simp [parts, children, partsOfElements_eq, partsOfAttributes_eq, List.flatMap_map]

theorem forall_mem_parts {ty : Ty} {P : Ty → Prop} :
    (∀ part ∈ ty.parts, P part) ↔ P ty ∧ ∀ child ∈ ty.children, ∀ part ∈ child.parts, P part := by
  rw [parts_eq, List.forall_mem_cons, List.forall_mem_flatMap]

def NamesAscend : Ty → Prop
  | object attributes => Dict.Sorted attributes
  | _ => True

/-- The names of attributes ascend, here and inside. A dictionary that carries its order cannot
stand inside the inductive type, so that the order is a property of whole types, which every reader
establishes. -/
def Ordered (ty : Ty) : Prop := ∀ part ∈ ty.parts, part.NamesAscend

theorem ordered_iff {ty : Ty} :
    ty.Ordered ↔ ty.NamesAscend ∧ ∀ child ∈ ty.children, child.Ordered := forall_mem_parts

end Ty

namespace Value

/-- Induction on values, with the hypothesis for every item and every entry. -/
@[induction_eliminator]
theorem inductionOn {P : Value → Prop}
    (null : P null) (bool : ∀ b, P (bool b)) (number : ∀ x, P (number x))
    (string : ∀ s, P (string s))
    (list : ∀ items : List Value, (∀ item ∈ items, P item) → P (list items))
    (set : ∀ items : List Value, (∀ item ∈ items, P item) → P (set items))
    (tuple : ∀ items : List Value, (∀ item ∈ items, P item) → P (tuple items))
    (map : ∀ entries : List (String × Value), (∀ entry ∈ entries, P entry.2) → P (map entries))
    (object : ∀ entries : List (String × Value),
      (∀ entry ∈ entries, P entry.2) → P (object entries))
    (unknown : ∀ ty, P (unknown ty)) (value : Value) : P value :=
  Value.rec (motive_1 := P)
    (motive_2 := fun items => ∀ item ∈ items, P item)
    (motive_3 := fun entries => ∀ entry ∈ entries, P entry.2)
    (motive_4 := fun entry => P entry.2)
    null bool number string list set tuple map object unknown
    (List.forall_mem_nil _) (fun _ _ head tail => List.forall_mem_cons.mpr ⟨head, tail⟩)
    (List.forall_mem_nil _) (fun _ _ head tail => List.forall_mem_cons.mpr ⟨head, tail⟩)
    (fun _ _ ih => ih) value

mutual

/-- A value and the values inside it. -/
def parts : Value → List Value
  | list items => list items :: partsOfItems items
  | set items => set items :: partsOfItems items
  | tuple items => tuple items :: partsOfItems items
  | map entries => map entries :: partsOfEntries entries
  | object entries => object entries :: partsOfEntries entries
  | scalar => [scalar]

def partsOfItems : List Value → List Value
  | [] => []
  | item :: rest => item.parts ++ partsOfItems rest

def partsOfEntries : List (String × Value) → List Value
  | [] => []
  | (_, value) :: rest => value.parts ++ partsOfEntries rest

end

/-- The values right below a value. -/
def children : Value → List Value
  | list items | set items | tuple items => items
  | map entries | object entries => entries.map Prod.snd
  | _ => []

theorem partsOfItems_eq (items : List Value) : partsOfItems items = items.flatMap parts := by
  induction items with
  | nil => rfl
  | cons item rest ih => rw [partsOfItems, ih, List.flatMap_cons]

theorem partsOfEntries_eq (entries : List (String × Value)) :
    partsOfEntries entries = entries.flatMap fun entry => entry.2.parts := by
  induction entries with
  | nil => rfl
  | cons entry rest ih => rw [partsOfEntries, ih, List.flatMap_cons]

theorem parts_eq (value : Value) : value.parts = value :: value.children.flatMap parts := by
  cases value <;> simp [parts, children, partsOfItems_eq, partsOfEntries_eq, List.flatMap_map]

theorem forall_mem_parts {value : Value} {P : Value → Prop} :
    (∀ part ∈ value.parts, P part) ↔
      P value ∧ ∀ child ∈ value.children, ∀ part ∈ child.parts, P part := by
  rw [parts_eq, List.forall_mem_cons, List.forall_mem_flatMap]

/-- The items of a sequence. -/
def items? : Value → Option (List Value)
  | list items | set items | tuple items => some items
  | _ => none

/-- The entries of a collection. -/
def entries? : Value → Option (List (String × Value))
  | map entries | object entries => some entries
  | _ => none

/-- Induction on values by their children alone. -/
theorem childrenInduction {P : Value → Prop}
    (step : ∀ value, (∀ child ∈ value.children, P child) → P value) (value : Value) : P value := by
  induction value with
  | list items ih | set items ih | tuple items ih => exact step _ ih
  | map entries ih | object entries ih =>
      refine step _ fun child member => ?_
      obtain ⟨entry, inside, rfl⟩ := List.mem_map.mp member
      exact ih entry inside
  | _ => exact step _ (List.forall_mem_nil _)

theorem children_of_items? {value : Value} {items : List Value}
    (sequence : value.items? = some items) : value.children = items := by
  cases value <;> cases sequence <;> rfl

theorem children_of_entries? {value : Value} {entries : List (String × Value)}
    (collection : value.entries? = some entries) : value.children = entries.map Prod.snd := by
  cases value <;> cases collection <;> rfl

/-- The names of a collection ascend, and so do those in the type of what is not known. -/
def NamesAscend : Value → Prop
  | map entries | object entries => Dict.Sorted entries
  | unknown ty => ty.Ordered
  | _ => True

/-- The names of collections ascend, here and inside. -/
def Ordered (value : Value) : Prop := ∀ part ∈ value.parts, part.NamesAscend

theorem ordered_iff {value : Value} :
    value.Ordered ↔ value.NamesAscend ∧ ∀ child ∈ value.children, child.Ordered :=
  forall_mem_parts

theorem ordered_null : Ordered null := ordered_iff.mpr ⟨trivial, List.forall_mem_nil _⟩

theorem sorted_of_entries? {value : Value} {entries : List (String × Value)}
    (collection : value.entries? = some entries) (ordered : value.Ordered) :
    Dict.Sorted entries := by
  have ascend := (ordered_iff.mp ordered).1
  cases value <;> cases collection <;> exact ascend

/-- Nothing inside is unknown. -/
def Known (value : Value) : Prop := ∀ part ∈ value.parts, ∀ ty, part ≠ unknown ty

theorem known_iff {value : Value} :
    value.Known ↔ (∀ ty, value ≠ unknown ty) ∧ ∀ child ∈ value.children, child.Known :=
  forall_mem_parts

/-- Some number inside is not a number. -/
def HasNaN (value : Value) : Prop := ∃ x : Binary64, number x ∈ value.parts ∧ x.isNaN = true

theorem itemTypes_eq (items : List Value) : itemTypes items = items.map ty :=
  eq_map_of_cons rfl (fun _ _ => rfl) items

theorem entryTypes_eq (entries : List (String × Value)) :
    entryTypes entries = entries.map fun entry => (entry.1, entry.2.ty) :=
  eq_map_of_cons rfl (fun _ _ => rfl) entries

end Value

namespace MsgPack

/-- Induction on documents, with the hypothesis for every item, key and value. -/
@[induction_eliminator]
theorem inductionOn {P : MsgPack → Prop}
    (nil : P nil) (bool : ∀ b, P (bool b)) (integer : ∀ n, P (integer n))
    (single : ∀ bits, P (single bits)) (double : ∀ x, P (double x))
    (string : ∀ bytes, P (string bytes)) (binary : ∀ bytes, P (binary bytes))
    (array : ∀ items : List MsgPack, (∀ item ∈ items, P item) → P (array items))
    (map : ∀ pairs : List (MsgPack × MsgPack),
      (∀ pair ∈ pairs, P pair.1 ∧ P pair.2) → P (map pairs))
    (extension : ∀ type bytes, P (extension type bytes)) (document : MsgPack) : P document :=
  MsgPack.rec (motive_1 := P)
    (motive_2 := fun items => ∀ item ∈ items, P item)
    (motive_3 := fun pairs => ∀ pair ∈ pairs, P pair.1 ∧ P pair.2)
    (motive_4 := fun pair => P pair.1 ∧ P pair.2)
    nil bool integer single double string binary array map extension
    (List.forall_mem_nil _) (fun _ _ head tail => List.forall_mem_cons.mpr ⟨head, tail⟩)
    (List.forall_mem_nil _) (fun _ _ head tail => List.forall_mem_cons.mpr ⟨head, tail⟩)
    (fun _ _ first second => ⟨first, second⟩) document

mutual

/-- A document and the documents inside it. -/
def parts : MsgPack → List MsgPack
  | array items => array items :: partsOfItems items
  | map pairs => map pairs :: partsOfPairs pairs
  | scalar => [scalar]

def partsOfItems : List MsgPack → List MsgPack
  | [] => []
  | item :: rest => item.parts ++ partsOfItems rest

def partsOfPairs : List (MsgPack × MsgPack) → List MsgPack
  | [] => []
  | (key, value) :: rest => key.parts ++ (value.parts ++ partsOfPairs rest)

end

/-- The documents right below a document. -/
def children : MsgPack → List MsgPack
  | array items => items
  | map pairs => pairs.flatMap fun pair => [pair.1, pair.2]
  | _ => []

theorem partsOfItems_eq (items : List MsgPack) : partsOfItems items = items.flatMap parts := by
  induction items with
  | nil => rfl
  | cons item rest ih => rw [partsOfItems, ih, List.flatMap_cons]

theorem partsOfPairs_eq (pairs : List (MsgPack × MsgPack)) :
    partsOfPairs pairs = pairs.flatMap fun pair => pair.1.parts ++ pair.2.parts := by
  induction pairs with
  | nil => rfl
  | cons pair rest ih => rw [partsOfPairs, ih, List.flatMap_cons, List.append_assoc]

theorem parts_eq (document : MsgPack) :
    document.parts = document :: document.children.flatMap parts := by
  cases document <;> simp [parts, children, partsOfItems_eq, partsOfPairs_eq, List.flatMap_assoc]

theorem forall_mem_parts {document : MsgPack} {P : MsgPack → Prop} :
    (∀ part ∈ document.parts, P part) ↔
      P document ∧ ∀ child ∈ document.children, ∀ part ∈ child.parts, P part := by
  rw [parts_eq, List.forall_mem_cons, List.forall_mem_flatMap]

/-- Induction on documents by their children alone. -/
theorem childrenInduction {P : MsgPack → Prop}
    (step : ∀ document, (∀ child ∈ document.children, P child) → P document)
    (document : MsgPack) : P document := by
  induction document with
  | array items ih => exact step _ ih
  | map pairs ih =>
      refine step _ fun child member => ?_
      obtain ⟨pair, inside, side⟩ := List.mem_flatMap.mp member
      rw [List.mem_cons, List.mem_singleton] at side
      rcases side with rfl | rfl
      · exact (ih pair inside).1
      · exact (ih pair inside).2
  | _ => exact step _ (List.forall_mem_nil _)

end MsgPack

/-- Induction on documents, with the hypothesis for every item and every field. -/
@[induction_eliminator]
theorem Json.inductionOn {P : Json → Prop}
    (null : P .null) (bool : ∀ b, P (.bool b)) (integer : ∀ n, P (.integer n))
    (float : ∀ x, P (.float x)) (string : ∀ s, P (.string s))
    (array : ∀ items : List Json, (∀ item ∈ items, P item) → P (.array items))
    (object : ∀ fields : List (String × Json), (∀ field ∈ fields, P field.2) → P (.object fields))
    (document : Json) : P document :=
  Json.rec (motive_1 := P)
    (motive_2 := fun items => ∀ item ∈ items, P item)
    (motive_3 := fun fields => ∀ field ∈ fields, P field.2)
    (motive_4 := fun field => P field.2)
    null bool integer float string array object
    (List.forall_mem_nil _) (fun _ _ head tail => List.forall_mem_cons.mpr ⟨head, tail⟩)
    (List.forall_mem_nil _) (fun _ _ head tail => List.forall_mem_cons.mpr ⟨head, tail⟩)
    (fun _ _ ih => ih) document

end ScriptHost
