import Mathlib.Data.List.Forall2
import ScriptHost.Proofs.Parts

set_option autoImplicit false

namespace ScriptHost.Ty

mutual

/-- A type specialises to another if it is the same but for parts that were dynamic. -/
def Le : Ty → Ty → Prop
  | dynamic, _ => True
  | bool, bool | number, number | string, string => True
  | list a, list b | set a, set b | map a, map b => Le a b
  | object a, object b => LeAttributes a b
  | tuple a, tuple b => LeElements a b
  | _, _ => False

def LeElements : List Ty → List Ty → Prop
  | [], [] => True
  | a :: as, b :: bs => Le a b ∧ LeElements as bs
  | _, _ => False

def LeAttributes : List (String × Ty) → List (String × Ty) → Prop
  | [], [] => True
  | (j, a) :: as, (k, b) :: bs => (j = k ∧ Le a b) ∧ LeAttributes as bs
  | _, _ => False

end

instance : LE Ty := ⟨Le⟩

theorem le_def (a b : Ty) : a ≤ b ↔ Le a b := Iff.rfl

theorem leElements_iff {as bs : List Ty} : LeElements as bs ↔ List.Forall₂ (· ≤ ·) as bs := by
  induction as generalizing bs with
  | nil => cases bs <;> simp [LeElements]
  | cons a as ih =>
      cases bs with
      | nil => simp [LeElements]
      | cons b bs => rw [LeElements, List.forall₂_cons, ih, le_def]

/-- Attributes specialise under the same names. -/
theorem leAttributes_iff {as bs : List (String × Ty)} : LeAttributes as bs ↔
    List.Forall₂ (fun a b => a.1 = b.1 ∧ a.2 ≤ b.2) as bs := by
  induction as generalizing bs with
  | nil => cases bs <;> simp [LeAttributes]
  | cons a as ih =>
      cases bs with
      | nil => simp [LeAttributes]
      | cons b bs => rw [LeAttributes, List.forall₂_cons, ih, le_def]

/-- A relation that is transitive from the items of a list on is so on the list. -/
theorem forall₂_trans {α : Type} {r : α → α → Prop} {as bs cs : List α}
    (trans : ∀ a ∈ as, ∀ b c, r a b → r b c → r a c) (first : List.Forall₂ r as bs)
    (second : List.Forall₂ r bs cs) : List.Forall₂ r as cs := by
  induction first generalizing cs with
  | nil => exact second
  | cons head _ ih =>
      cases second with
      | cons next more =>
          have tail := ih (fun a member => trans a (List.mem_cons_of_mem _ member)) more
          exact .cons (trans _ List.mem_cons_self _ _ head next) tail

theorem eq_of_forall₂ {α : Type} {r : α → α → Prop} {as bs : List α}
    (same : ∀ a ∈ as, ∀ b, r a b → b = a) (related : List.Forall₂ r as bs) : bs = as := by
  induction related with
  | nil => rfl
  | cons head _ ih =>
      have tail := ih fun a member => same a (List.mem_cons_of_mem _ member)
      rw [same _ List.mem_cons_self _ head, tail]

variable {a t : Ty}

/-- The types above one are those of its kind whose parts are above its parts. -/
theorem le_iff (a t : Ty) : a ≤ t ↔
    match a with
    | dynamic => True
    | bool => t = bool
    | number => t = number
    | string => t = string
    | list a => ∃ b, t = list b ∧ a ≤ b
    | set a => ∃ b, t = set b ∧ a ≤ b
    | map a => ∃ b, t = map b ∧ a ≤ b
    | object as =>
        ∃ bs, t = object bs ∧ List.Forall₂ (fun a b => a.1 = b.1 ∧ a.2 ≤ b.2) as bs
    | tuple as => ∃ bs, t = tuple bs ∧ List.Forall₂ (· ≤ ·) as bs := by
  cases a <;> cases t <;> simp [le_def, Le, leElements_iff, leAttributes_iff]

@[simp] theorem dynamic_le (t : Ty) : dynamic ≤ t := (le_iff dynamic t).mpr trivial

theorem bool_le : bool ≤ t ↔ t = bool := le_iff bool t

theorem number_le : number ≤ t ↔ t = number := le_iff number t

theorem string_le : string ≤ t ↔ t = string := le_iff string t

theorem list_le : list a ≤ t ↔ ∃ b, t = list b ∧ a ≤ b := le_iff (list a) t

theorem set_le : set a ≤ t ↔ ∃ b, t = set b ∧ a ≤ b := le_iff (set a) t

theorem map_le : map a ≤ t ↔ ∃ b, t = map b ∧ a ≤ b := le_iff (map a) t

theorem object_le {as : List (String × Ty)} : object as ≤ t ↔
    ∃ bs, t = object bs ∧ List.Forall₂ (fun a b => a.1 = b.1 ∧ a.2 ≤ b.2) as bs :=
  le_iff (object as) t

theorem tuple_le {as : List Ty} : tuple as ≤ t ↔
    ∃ bs, t = tuple bs ∧ List.Forall₂ (· ≤ ·) as bs := le_iff (tuple as) t

theorem le_refl (t : Ty) : t ≤ t := by
  induction t with
  | dynamic => exact dynamic_le _
  | bool => exact bool_le.mpr rfl
  | number => exact number_le.mpr rfl
  | string => exact string_le.mpr rfl
  | list element ih => exact list_le.mpr ⟨element, rfl, ih⟩
  | set element ih => exact set_le.mpr ⟨element, rfl, ih⟩
  | map element ih => exact map_le.mpr ⟨element, rfl, ih⟩
  | object attributes ih =>
      refine object_le.mpr ⟨attributes, rfl, List.forall₂_same.mpr fun field member => ?_⟩
      exact ⟨rfl, ih field member⟩
  | tuple elements ih => exact tuple_le.mpr ⟨elements, rfl, List.forall₂_same.mpr ih⟩

theorem le_trans {a b c : Ty} (first : a ≤ b) (second : b ≤ c) : a ≤ c := by
  induction a generalizing b c with
  | dynamic => exact dynamic_le c
  | bool => exact bool_le.mp first ▸ second
  | number => exact number_le.mp first ▸ second
  | string => exact string_le.mp first ▸ second
  | list a ih =>
      obtain ⟨b, rfl, below⟩ := list_le.mp first
      obtain ⟨c, rfl, above⟩ := list_le.mp second
      exact list_le.mpr ⟨c, rfl, ih below above⟩
  | set a ih =>
      obtain ⟨b, rfl, below⟩ := set_le.mp first
      obtain ⟨c, rfl, above⟩ := set_le.mp second
      exact set_le.mpr ⟨c, rfl, ih below above⟩
  | map a ih =>
      obtain ⟨b, rfl, below⟩ := map_le.mp first
      obtain ⟨c, rfl, above⟩ := map_le.mp second
      exact map_le.mpr ⟨c, rfl, ih below above⟩
  | object as ih =>
      obtain ⟨bs, rfl, below⟩ := object_le.mp first
      obtain ⟨cs, rfl, above⟩ := object_le.mp second
      refine object_le.mpr ⟨cs, rfl, forall₂_trans ?_ below above⟩
      intro a member b c head next
      exact ⟨head.1.trans next.1, ih a member head.2 next.2⟩
  | tuple as ih =>
      obtain ⟨bs, rfl, below⟩ := tuple_le.mp first
      obtain ⟨cs, rfl, above⟩ := tuple_le.mp second
      exact tuple_le.mpr ⟨cs, rfl, forall₂_trans (fun a member _ _ => ih a member) below above⟩

theorem unifyElements_cons {a b : Ty} {as bs all : List Ty} :
    unifyElements (a :: as) (b :: bs) = some all ↔
      ∃ c cs, unify a b = some c ∧ unifyElements as bs = some cs ∧ all = c :: cs := by
  rw [unifyElements]
  split
  · rename_i c cs first others
    simp [first, others, eq_comm]
  · rename_i failed
    refine iff_of_false (by simp) ?_
    rintro ⟨c, cs, first, others, -⟩
    exact failed c cs first others

theorem unifyAttributes_cons {j k : String} {a b : Ty} {as bs all : List (String × Ty)} :
    unifyAttributes ((j, a) :: as) ((k, b) :: bs) = some all ↔
      j = k ∧ ∃ c cs, unify a b = some c ∧ unifyAttributes as bs = some cs ∧
        all = (j, c) :: cs := by
  rw [unifyAttributes]
  split
  · rename_i same
    split
    · rename_i c cs first others
      simp [same, first, others, eq_comm]
    · rename_i failed
      refine iff_of_false (by simp) ?_
      rintro ⟨-, c, cs, first, others, -⟩
      exact failed c cs first others
  · rename_i different
    simp [different]

/-- What specialises both types specialises their unification, which there is if anything does. -/
def IsJoin (a b : Ty) (join : Option Ty) : Prop :=
  ∀ d, (a ≤ d ∧ b ≤ d) ↔ ∃ c, join = some c ∧ c ≤ d

theorem isJoin_unifyElements {as : List Ty} (joins : ∀ a ∈ as, ∀ b, IsJoin a b (unify a b))
    (bs ds : List Ty) :
    (List.Forall₂ (· ≤ ·) as ds ∧ List.Forall₂ (· ≤ ·) bs ds) ↔
      ∃ cs, unifyElements as bs = some cs ∧ List.Forall₂ (· ≤ ·) cs ds := by
  induction as generalizing bs ds with
  | nil => cases bs <;> cases ds <;> simp [unifyElements]
  | cons a as ih =>
      cases bs with
      | nil => cases ds <;> simp [unifyElements]
      | cons b bs =>
          simp only [unifyElements_cons]
          cases ds with
          | nil => simp
          | cons d ds =>
              have head := joins a (by simp) b d
              have tail := ih (fun a member => joins a (by simp [member])) bs ds
              rw [List.forall₂_cons, List.forall₂_cons, and_and_and_comm, head, tail]
              constructor
              · rintro ⟨⟨c, first, below⟩, cs, others, rest⟩
                exact ⟨c :: cs, ⟨c, cs, first, others, rfl⟩, .cons below rest⟩
              · rintro ⟨_, ⟨c, cs, first, others, rfl⟩, below⟩
                obtain ⟨below, rest⟩ := List.forall₂_cons.mp below
                exact ⟨⟨c, first, below⟩, cs, others, rest⟩

theorem isJoin_unifyAttributes {as : List (String × Ty)}
    (joins : ∀ a ∈ as, ∀ b, IsJoin a.2 b (unify a.2 b)) (bs ds : List (String × Ty)) :
    (List.Forall₂ (fun a d => a.1 = d.1 ∧ a.2 ≤ d.2) as ds ∧
      List.Forall₂ (fun b d => b.1 = d.1 ∧ b.2 ≤ d.2) bs ds) ↔
      ∃ cs, unifyAttributes as bs = some cs ∧
        List.Forall₂ (fun c d => c.1 = d.1 ∧ c.2 ≤ d.2) cs ds := by
  induction as generalizing bs ds with
  | nil => cases bs <;> cases ds <;> simp [unifyAttributes]
  | cons a as ih =>
      obtain ⟨j, a⟩ := a
      cases bs with
      | nil => cases ds <;> simp [unifyAttributes]
      | cons b bs =>
          obtain ⟨k, b⟩ := b
          simp only [unifyAttributes_cons]
          cases ds with
          | nil => simp
          | cons d ds =>
              obtain ⟨l, d⟩ := d
              have head := joins (j, a) (by simp) b d
              have tail := ih (fun a member => joins a (by simp [member])) bs ds
              rw [List.forall₂_cons, List.forall₂_cons, and_and_and_comm, tail]
              constructor
              · rintro ⟨⟨⟨same, first⟩, also, second⟩, cs, others, rest⟩
                obtain ⟨c, joined, below⟩ := head.mp ⟨first, second⟩
                exact ⟨(j, c) :: cs, ⟨same.trans also.symm, c, cs, joined, others, rfl⟩,
                  .cons ⟨same, below⟩ rest⟩
              · rintro ⟨_, ⟨rfl, c, cs, joined, others, rfl⟩, below⟩
                obtain ⟨⟨same, below⟩, rest⟩ := List.forall₂_cons.mp below
                obtain ⟨first, second⟩ := head.mpr ⟨c, joined, below⟩
                exact ⟨⟨⟨same, first⟩, same, second⟩, cs, others, rest⟩

/-- The shape that all bounds of a type share. -/
def shape : Ty → Nat
  | dynamic => 0
  | bool => 1
  | number => 2
  | string => 3
  | list _ => 4
  | set _ => 5
  | map _ => 6
  | object _ => 7
  | tuple _ => 8

theorem shape_eq_of_le {a b : Ty} (known : a ≠ dynamic) (below : a ≤ b) : a.shape = b.shape := by
  rw [le_iff] at below
  cases a with
  | dynamic => exact absurd rfl known
  | bool | number | string => rw [below]
  | list a | set a | map a | object as | tuple as =>
      obtain ⟨parts, rfl, -⟩ := below
      rfl

/-- Types of different shapes have no bound. -/
theorem isJoin_none {a b : Ty} (first : a ≠ dynamic) (second : b ≠ dynamic)
    (different : a.shape ≠ b.shape) : IsJoin a b none := by
  intro d
  refine iff_of_false ?_ (by simp)
  rintro ⟨below, also⟩
  exact different ((shape_eq_of_le first below).trans (shape_eq_of_le second also).symm)

theorem isJoin_dynamic (a : Ty) : IsJoin a dynamic (some a) := by
  simp [IsJoin]

theorem isJoin_self (a : Ty) : IsJoin a a (some a) := by
  simp [IsJoin]

/-- A kind with one element type joins where its element types do. -/
theorem isJoin_map {wrap : Ty → Ty} {a b : Ty} {join : Option Ty}
    (bounds : ∀ a t, wrap a ≤ t ↔ ∃ b, t = wrap b ∧ a ≤ b) (injective : Function.Injective wrap)
    (inside : IsJoin a b join) : IsJoin (wrap a) (wrap b) (join.map wrap) := by
  intro d
  rw [bounds, bounds]
  constructor
  · rintro ⟨⟨e, rfl, below⟩, f, same, also⟩
    cases injective same
    obtain ⟨c, joined, bound⟩ := (inside e).mp ⟨below, also⟩
    exact ⟨wrap c, by rw [joined, Option.map_some], (bounds c _).mpr ⟨e, rfl, bound⟩⟩
  · rintro ⟨_, mapped, above⟩
    obtain ⟨c, joined, rfl⟩ := Option.map_eq_some_iff.mp mapped
    obtain ⟨e, rfl, bound⟩ := (bounds c d).mp above
    obtain ⟨below, also⟩ := (inside e).mpr ⟨c, joined, bound⟩
    exact ⟨⟨e, rfl, below⟩, e, rfl, also⟩

theorem isJoin_object {as bs : List (String × Ty)}
    (joins : ∀ a ∈ as, ∀ b, IsJoin a.2 b (unify a.2 b)) :
    IsJoin (object as) (object bs) ((unifyAttributes as bs).map object) := by
  intro d
  rw [object_le, object_le]
  constructor
  · rintro ⟨⟨ds, rfl, below⟩, _, same, also⟩
    cases same
    obtain ⟨cs, joined, bound⟩ := (isJoin_unifyAttributes joins bs ds).mp ⟨below, also⟩
    exact ⟨object cs, by rw [joined, Option.map_some], object_le.mpr ⟨ds, rfl, bound⟩⟩
  · rintro ⟨_, mapped, above⟩
    obtain ⟨cs, joined, rfl⟩ := Option.map_eq_some_iff.mp mapped
    obtain ⟨ds, rfl, bound⟩ := object_le.mp above
    obtain ⟨below, also⟩ := (isJoin_unifyAttributes joins bs ds).mpr ⟨cs, joined, bound⟩
    exact ⟨⟨ds, rfl, below⟩, ds, rfl, also⟩

theorem isJoin_tuple {as bs : List Ty} (joins : ∀ a ∈ as, ∀ b, IsJoin a b (unify a b)) :
    IsJoin (tuple as) (tuple bs) ((unifyElements as bs).map tuple) := by
  intro d
  rw [tuple_le, tuple_le]
  constructor
  · rintro ⟨⟨ds, rfl, below⟩, _, same, also⟩
    cases same
    obtain ⟨cs, joined, bound⟩ := (isJoin_unifyElements joins bs ds).mp ⟨below, also⟩
    exact ⟨tuple cs, by rw [joined, Option.map_some], tuple_le.mpr ⟨ds, rfl, bound⟩⟩
  · rintro ⟨_, mapped, above⟩
    obtain ⟨cs, joined, rfl⟩ := Option.map_eq_some_iff.mp mapped
    obtain ⟨ds, rfl, bound⟩ := tuple_le.mp above
    obtain ⟨below, also⟩ := (isJoin_unifyElements joins bs ds).mpr ⟨cs, joined, bound⟩
    exact ⟨⟨ds, rfl, below⟩, ds, rfl, also⟩

/-- Unification is the least upper bound. -/
theorem isJoin_unify (a b : Ty) : IsJoin a b (unify a b) := by
  induction a generalizing b with
  | dynamic => simp [IsJoin, unify]
  | bool =>
      cases b with
      | dynamic => exact isJoin_dynamic bool
      | bool => exact isJoin_self bool
      | _ => exact isJoin_none (by simp) (by simp) (by simp [shape])
  | number =>
      cases b with
      | dynamic => exact isJoin_dynamic number
      | number => exact isJoin_self number
      | _ => exact isJoin_none (by simp) (by simp) (by simp [shape])
  | string =>
      cases b with
      | dynamic => exact isJoin_dynamic string
      | string => exact isJoin_self string
      | _ => exact isJoin_none (by simp) (by simp) (by simp [shape])
  | list a ih =>
      cases b with
      | dynamic => exact isJoin_dynamic (list a)
      | list b => exact isJoin_map (fun _ _ => list_le) (fun _ _ => list.inj) (ih b)
      | _ => exact isJoin_none (by simp) (by simp) (by simp [shape])
  | set a ih =>
      cases b with
      | dynamic => exact isJoin_dynamic (set a)
      | set b => exact isJoin_map (fun _ _ => set_le) (fun _ _ => set.inj) (ih b)
      | _ => exact isJoin_none (by simp) (by simp) (by simp [shape])
  | map a ih =>
      cases b with
      | dynamic => exact isJoin_dynamic (map a)
      | map b => exact isJoin_map (fun _ _ => map_le) (fun _ _ => map.inj) (ih b)
      | _ => exact isJoin_none (by simp) (by simp) (by simp [shape])
  | object as ih =>
      cases b with
      | dynamic => exact isJoin_dynamic (object as)
      | object bs => exact isJoin_object ih
      | _ => exact isJoin_none (by simp) (by simp) (by simp [shape])
  | tuple as ih =>
      cases b with
      | dynamic => exact isJoin_dynamic (tuple as)
      | tuple bs => exact isJoin_tuple ih
      | _ => exact isJoin_none (by simp) (by simp) (by simp [shape])

/-- What bounds all of some types bounds their common type, which there is if anything does. -/
theorem common_isLub (types : List Ty) (d : Ty) :
    (∀ t ∈ types, t ≤ d) ↔ ∃ c, common types = some c ∧ c ≤ d := by
  have general (first : Ty) : (first ≤ d ∧ ∀ t ∈ types, t ≤ d) ↔
      ∃ c, types.foldlM unify first = some c ∧ c ≤ d := by
    induction types generalizing first with
    | nil => simp
    | cons t rest ih =>
        rw [List.forall_mem_cons, ← and_assoc, isJoin_unify first t d, List.foldlM_cons]
        cases joined : unify first t with
        | none => simp
        | some c => simpa using ih c
  have all := general dynamic
  rwa [and_iff_right (dynamic_le d)] at all

theorem le_common {types : List Ty} {t c : Ty} (shared : common types = some c)
    (member : t ∈ types) : t ≤ c :=
  (common_isLub types c).mpr ⟨c, shared, le_refl c⟩ t member

theorem unifyAttributes_spec {as bs cs : List (String × Ty)}
    (joined : unifyAttributes as bs = some cs) :
    Dict.keys cs = Dict.keys as ∧
      ∀ c ∈ cs, ∃ a ∈ as, ∃ b ∈ bs, unify a.2 b.2 = some c.2 := by
  induction as generalizing bs cs with
  | nil =>
      cases bs with
      | nil =>
          cases joined
          simp
      | cons b bs => simp [unifyAttributes] at joined
  | cons a as ih =>
      obtain ⟨j, a⟩ := a
      cases bs with
      | nil => simp [unifyAttributes] at joined
      | cons b bs =>
          obtain ⟨k, b⟩ := b
          obtain ⟨rfl, c, rest, first, others, rfl⟩ := unifyAttributes_cons.mp joined
          obtain ⟨names, from'⟩ := ih others
          refine ⟨by rw [Dict.keys_cons, Dict.keys_cons, names], List.forall_mem_cons.mpr ⟨?_, ?_⟩⟩
          · exact ⟨(j, a), by simp, (j, b), by simp, first⟩
          · intro c member
            obtain ⟨a', inA, b', inB, parts⟩ := from' c member
            exact ⟨a', by simp [inA], b', by simp [inB], parts⟩

theorem unifyElements_spec {as bs cs : List Ty} (joined : unifyElements as bs = some cs) :
    ∀ c ∈ cs, ∃ a ∈ as, ∃ b ∈ bs, unify a b = some c := by
  induction as generalizing bs cs with
  | nil =>
      cases bs with
      | nil =>
          cases joined
          simp
      | cons b bs => simp [unifyElements] at joined
  | cons a as ih =>
      cases bs with
      | nil => simp [unifyElements] at joined
      | cons b bs =>
          obtain ⟨c, rest, first, others, rfl⟩ := unifyElements_cons.mp joined
          refine List.forall_mem_cons.mpr ⟨⟨a, by simp, b, by simp, first⟩, ?_⟩
          intro c member
          obtain ⟨a', inA, b', inB, parts⟩ := ih others c member
          exact ⟨a', by simp [inA], b', by simp [inB], parts⟩

/-- Unification keeps the order of names. -/
theorem ordered_of_unify {a b c : Ty} (joined : unify a b = some c) (first : a.Ordered)
    (second : b.Ordered) : c.Ordered := by
  induction a generalizing b c with
  | dynamic => simp_all [unify]
  | bool | number | string =>
      cases b <;> simp_all [unify]
  | list a ih | set a ih | map a ih =>
      cases b <;> simp [unify] at joined
      · rwa [← joined]
      · obtain ⟨c, inside, rfl⟩ := joined
        have below := ih inside ((ordered_iff.mp first).2 a (by simp [children]))
          ((ordered_iff.mp second).2 _ (by simp [children]))
        exact ordered_iff.mpr ⟨trivial, by simpa [children] using below⟩
  | object as ih =>
      cases b <;> simp [unify] at joined
      · rwa [← joined]
      · obtain ⟨cs, inside, rfl⟩ := joined
        obtain ⟨names, from'⟩ := unifyAttributes_spec inside
        obtain ⟨sorted, firstInside⟩ := ordered_iff.mp first
        obtain ⟨-, secondInside⟩ := ordered_iff.mp second
        refine ordered_iff.mpr ⟨?_, ?_⟩
        · rw [NamesAscend, Dict.Sorted, names]
          exact sorted
        · intro child member
          obtain ⟨c, here, rfl⟩ := List.mem_map.mp member
          obtain ⟨a, inA, b, inB, parts⟩ := from' c here
          exact ih a inA parts (firstInside _ (List.mem_map_of_mem inA))
            (secondInside _ (List.mem_map_of_mem inB))
  | tuple as ih =>
      cases b <;> simp [unify] at joined
      · rwa [← joined]
      · obtain ⟨cs, inside, rfl⟩ := joined
        obtain ⟨-, firstInside⟩ := ordered_iff.mp first
        obtain ⟨-, secondInside⟩ := ordered_iff.mp second
        refine ordered_iff.mpr ⟨trivial, fun c member => ?_⟩
        obtain ⟨a, inA, b, inB, parts⟩ := unifyElements_spec inside c member
        exact ih a inA parts (firstInside a inA) (secondInside b inB)

theorem ordered_of_common {types : List Ty} {c : Ty} (shared : common types = some c)
    (ordered : ∀ t ∈ types, t.Ordered) : c.Ordered := by
  have general (first : Ty) (start : first.Ordered)
      (joined : types.foldlM unify first = some c) : c.Ordered := by
    clear shared
    induction types generalizing first with
    | nil =>
        cases joined
        exact start
    | cons t rest ih =>
        obtain ⟨u, step, remaining⟩ := Option.bind_eq_some_iff.mp joined
        have here := ordered_of_unify step start (ordered t (by simp))
        exact ih (fun t member => ordered t (by simp [member])) u here remaining
  exact general dynamic (ordered_iff.mpr ⟨trivial, by simp [children]⟩) shared

/-- No part is dynamic. -/
def Rigid (ty : Ty) : Prop := ∀ part ∈ ty.parts, part ≠ dynamic

theorem rigid_iff {ty : Ty} :
    ty.Rigid ↔ ty ≠ dynamic ∧ ∀ child ∈ ty.children, child.Rigid := forall_mem_parts

/-- Nothing else is above a rigid type. -/
theorem Rigid.eq_of_le {a b : Ty} (rigid : a.Rigid) (below : a ≤ b) : b = a := by
  induction a generalizing b with
  | dynamic => exact absurd rfl (rigid_iff.mp rigid).1
  | bool => exact bool_le.mp below
  | number => exact number_le.mp below
  | string => exact string_le.mp below
  | list a ih =>
      obtain ⟨b, rfl, inside⟩ := list_le.mp below
      rw [ih ((rigid_iff.mp rigid).2 a (by simp [children])) inside]
  | set a ih =>
      obtain ⟨b, rfl, inside⟩ := set_le.mp below
      rw [ih ((rigid_iff.mp rigid).2 a (by simp [children])) inside]
  | map a ih =>
      obtain ⟨b, rfl, inside⟩ := map_le.mp below
      rw [ih ((rigid_iff.mp rigid).2 a (by simp [children])) inside]
  | object as ih =>
      obtain ⟨bs, rfl, inside⟩ := object_le.mp below
      refine congrArg object (eq_of_forall₂ ?_ inside)
      intro a member b pair
      have part := (rigid_iff.mp rigid).2 a.2 (List.mem_map_of_mem member)
      exact Prod.ext pair.1.symm (ih a member part pair.2)
  | tuple as ih =>
      obtain ⟨bs, rfl, inside⟩ := tuple_le.mp below
      refine congrArg tuple (eq_of_forall₂ ?_ inside)
      intro a member b pair
      exact ih a member ((rigid_iff.mp rigid).2 a member) pair

theorem Rigid.eq_of_common {types : List Ty} {t c : Ty} (rigid : t.Rigid)
    (shared : common types = some c) (member : t ∈ types) : c = t :=
  rigid.eq_of_le (le_common shared member)

end ScriptHost.Ty
