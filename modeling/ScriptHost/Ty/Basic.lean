set_option autoImplicit false

namespace ScriptHost

/-- Types of values. `dynamic` is the type of a value that carries its own type with it, and of a
bare null. The attributes of an object type ascend by name. -/
inductive Ty where
  | dynamic
  | bool
  | number
  | string
  | list (element : Ty)
  | set (element : Ty)
  | map (element : Ty)
  | object (attributes : List (String × Ty))
  | tuple (elements : List Ty)
deriving Inhabited, Repr

namespace Ty

mutual

/-- Whether two types are the same. -/
def same : Ty → Ty → Bool
  | dynamic, dynamic | bool, bool | number, number | string, string => true
  | list a, list b | set a, set b | map a, map b => same a b
  | object a, object b => sameAttributes a b
  | tuple a, tuple b => sameElements a b
  | _, _ => false

def sameElements : List Ty → List Ty → Bool
  | [], [] => true
  | a :: as, b :: bs => same a b && sameElements as bs
  | _, _ => false

def sameAttributes : List (String × Ty) → List (String × Ty) → Bool
  | [], [] => true
  | (j, a) :: as, (k, b) :: bs => j == k && same a b && sameAttributes as bs
  | _, _ => false

end

mutual

theorem eq_of_same : (a b : Ty) → same a b = true → a = b
  | dynamic, b, h | bool, b, h | number, b, h | string, b, h => by cases b <;> simp_all [same]
  | list a, b, h => by
      cases b <;> simp [same] at h
      rw [eq_of_same a _ h]
  | set a, b, h => by
      cases b <;> simp [same] at h
      rw [eq_of_same a _ h]
  | map a, b, h => by
      cases b <;> simp [same] at h
      rw [eq_of_same a _ h]
  | object a, b, h => by
      cases b <;> simp [same] at h
      rw [eq_of_sameAttributes a _ h]
  | tuple a, b, h => by
      cases b <;> simp [same] at h
      rw [eq_of_sameElements a _ h]

theorem eq_of_sameElements : (a b : List Ty) → sameElements a b = true → a = b
  | [], b, h => by cases b <;> simp_all [sameElements]
  | a :: as, b, h => by
      cases b <;> simp [sameElements] at h
      rw [eq_of_same a _ h.1, eq_of_sameElements as _ h.2]

theorem eq_of_sameAttributes :
    (a b : List (String × Ty)) → sameAttributes a b = true → a = b
  | [], b, h => by cases b <;> simp_all [sameAttributes]
  | (k, a) :: as, b, h => by
      cases b <;> simp [sameAttributes] at h
      rw [h.1.1, eq_of_same a _ h.1.2, eq_of_sameAttributes as _ h.2]

end

mutual

theorem same_self : (a : Ty) → same a a = true
  | dynamic | bool | number | string => rfl
  | list a | set a | map a => by rw [same]; exact same_self a
  | object a => by rw [same]; exact sameAttributes_self a
  | tuple a => by rw [same]; exact sameElements_self a

theorem sameElements_self : (a : List Ty) → sameElements a a = true
  | [] => rfl
  | a :: as => by rw [sameElements, same_self a, sameElements_self as]; rfl

theorem sameAttributes_self : (a : List (String × Ty)) → sameAttributes a a = true
  | [] => rfl
  | (k, a) :: as => by rw [sameAttributes, same_self a, sameAttributes_self as]; simp

end

theorem same_eq_true_iff {a b : Ty} : same a b = true ↔ a = b :=
  ⟨eq_of_same a b, fun h => h ▸ same_self a⟩

instance : DecidableEq Ty := fun _ _ => decidable_of_iff _ same_eq_true_iff

/-- A type in words; the parts of objects and tuples are left out. -/
def describe : Ty → String
  | dynamic => "dynamic"
  | bool => "bool"
  | number => "number"
  | string => "string"
  | list element => "list of " ++ element.describe
  | set element => "set of " ++ element.describe
  | map element => "map of " ++ element.describe
  | object _ => "object"
  | tuple _ => "tuple"

mutual

/-- The most specific type that both types specialise to: `dynamic` yields to the other type, parts
are unified one by one, and types of different shape have none. -/
def unify : Ty → Ty → Option Ty
  | dynamic, b => some b
  | a, dynamic => some a
  | bool, bool => some bool
  | number, number => some number
  | string, string => some string
  | list a, list b => (unify a b).map list
  | set a, set b => (unify a b).map set
  | map a, map b => (unify a b).map map
  | object a, object b => (unifyAttributes a b).map object
  | tuple a, tuple b => (unifyElements a b).map tuple
  | _, _ => none

def unifyElements : List Ty → List Ty → Option (List Ty)
  | [], [] => some []
  | a :: as, b :: bs =>
      match unify a b, unifyElements as bs with
      | some c, some cs => some (c :: cs)
      | _, _ => none
  | _, _ => none

def unifyAttributes :
    List (String × Ty) → List (String × Ty) → Option (List (String × Ty))
  | [], [] => some []
  | (j, a) :: as, (k, b) :: bs =>
      if j = k then
        match unify a b, unifyAttributes as bs with
        | some c, some cs => some ((j, c) :: cs)
        | _, _ => none
      else none
  | _, _ => none

end

/-- The most specific type that all of some types specialise to; `dynamic` for none. -/
def common (types : List Ty) : Option Ty := types.foldlM unify dynamic

end Ty

end ScriptHost
