import Mathlib.Data.Set.Insert
import Mathlib.Order.Bounds.Defs
import ScriptHost.Proofs.Dict
import ScriptHost.Proofs.Ty.Unify
import ScriptHost.Value.Basic

set_option autoImplicit false

namespace ScriptHost.Ty

theorem le_antisymm {a b : Ty} (below : a ≤ b) (above : b ≤ a) : a = b := by
  induction a generalizing b with
  | dynamic =>
      by_contra known
      have shapes := shape_eq_of_le (Ne.symm known) above
      cases b <;> simp_all [shape]
  | bool => exact (bool_le.mp below).symm
  | number => exact (number_le.mp below).symm
  | string => exact (string_le.mp below).symm
  | list a ih =>
      obtain ⟨b, rfl, inside⟩ := list_le.mp below
      obtain ⟨_, ⟨⟩, outside⟩ := list_le.mp above
      rw [ih inside outside]
  | set a ih =>
      obtain ⟨b, rfl, inside⟩ := set_le.mp below
      obtain ⟨_, ⟨⟩, outside⟩ := set_le.mp above
      rw [ih inside outside]
  | map a ih =>
      obtain ⟨b, rfl, inside⟩ := map_le.mp below
      obtain ⟨_, ⟨⟩, outside⟩ := map_le.mp above
      rw [ih inside outside]
  | object as ih =>
      obtain ⟨bs, rfl, inside⟩ := object_le.mp below
      obtain ⟨_, ⟨⟩, outside⟩ := object_le.mp above
      have both := inside.mp (fun _ _ first second => And.intro first second) outside.flip
      refine congrArg object (eq_of_forall₂ ?_ both).symm
      rintro a member b ⟨⟨name, first⟩, -, second⟩
      exact Prod.ext name.symm (ih a member first second).symm
  | tuple as ih =>
      obtain ⟨bs, rfl, inside⟩ := tuple_le.mp below
      obtain ⟨_, ⟨⟩, outside⟩ := tuple_le.mp above
      have both := inside.mp (fun _ _ first second => And.intro first second) outside.flip
      refine congrArg tuple (eq_of_forall₂ ?_ both).symm
      rintro a member b ⟨first, second⟩
      exact (ih a member first second).symm

/-- Objects are ordered by their attributes, which must have the same names. -/
theorem object_le_object {as bs : List (String × Ty)} (sorted : Dict.Sorted as)
    (sorted' : Dict.Sorted bs) : object as ≤ object bs ↔
      (∀ name, name ∈ Dict.keys as ↔ name ∈ Dict.keys bs) ∧
        ∀ name a b, Dict.get? as name = some a → Dict.get? bs name = some b → a ≤ b := by
  constructor
  · intro below
    obtain ⟨_, ⟨⟩, inside⟩ := object_le.mp below
    clear below sorted sorted'
    induction inside with
    | nil => simp
    | @cons first second as bs head _ ih =>
        obtain ⟨name, a⟩ := first
        obtain ⟨_, b⟩ := second
        obtain ⟨rfl, below⟩ : name = _ ∧ a ≤ b := head
        refine ⟨fun other => by simp [ih.1 other], fun other c d foundFirst foundSecond => ?_⟩
        rw [Dict.get?_cons] at foundFirst foundSecond
        split at foundFirst
        · rename_i here
          rw [if_pos here] at foundSecond
          cases foundFirst
          cases foundSecond
          exact below
        · rename_i elsewhere
          rw [if_neg elsewhere] at foundSecond
          exact ih.2 other c d foundFirst foundSecond
  · rintro ⟨names, below⟩
    have keys := Dict.keys_eq_of_mem sorted sorted' names
    refine object_le.mpr ⟨bs, rfl, ?_⟩
    clear names
    induction as generalizing bs with
    | nil =>
        rw [Dict.keys_nil, eq_comm, Dict.keys, List.map_eq_nil_iff] at keys
        rw [keys]
        exact .nil
    | cons first as ih =>
        obtain ⟨name, a⟩ := first
        cases bs with
        | nil => cases keys
        | cons second bs =>
            obtain ⟨other, b⟩ := second
            simp only [Dict.keys_cons, List.cons.injEq] at keys
            obtain ⟨rfl, keys⟩ := keys
            obtain ⟨least, rest⟩ := Dict.sorted_cons.mp sorted
            have here : a ≤ b :=
              below name a b (by simp [Dict.get?_cons]) (by simp [Dict.get?_cons])
            refine .cons ⟨rfl, here⟩ (ih rest (Dict.sorted_cons.mp sorted').2 ?_ keys)
            intro later c d foundFirst foundSecond
            have different : later ≠ name := by
              rintro rfl
              exact (least later (Dict.mem_keys_of_mem (Dict.mem_of_get? foundFirst))).false
            apply below later c d
            · rwa [Dict.get?_cons, if_neg different]
            · rwa [Dict.get?_cons, if_neg different]

/-- Types that may be missing are told apart by the types above them. -/
theorem eq_of_bounds {x y : Option Ty}
    (same : ∀ d, (∃ c, x = some c ∧ c ≤ d) ↔ ∃ c, y = some c ∧ c ≤ d) : x = y := by
  cases x with
  | none =>
      cases y with
      | none => rfl
      | some b =>
          obtain ⟨_, ⟨⟩, -⟩ := (same b).mpr ⟨b, rfl, le_refl b⟩
  | some a =>
      obtain ⟨b, rfl, below⟩ := (same a).mp ⟨a, rfl, le_refl a⟩
      obtain ⟨_, ⟨⟩, above⟩ := (same b).mpr ⟨b, rfl, le_refl b⟩
      rw [le_antisymm above below]

theorem unify_comm (a b : Ty) : unify a b = unify b a := by
  apply eq_of_bounds
  intro d
  rw [← isJoin_unify a b d, ← isJoin_unify b a d, and_comm]

theorem unify_self (a : Ty) : unify a a = some a := by
  apply eq_of_bounds
  intro d
  rw [← isJoin_unify a a d, ← isJoin_self a d]

/-- What is above a unification with a third type is above that type too. -/
theorem bind_unify_le (x : Option Ty) (c d : Ty) :
    (∃ t, x.bind (unify · c) = some t ∧ t ≤ d) ↔ (∃ t, x = some t ∧ t ≤ d) ∧ c ≤ d := by
  cases x with
  | none => simp
  | some a => simpa using (isJoin_unify a c d).symm

theorem unify_assoc (a b c : Ty) :
    (unify a b).bind (unify · c) = (unify b c).bind (unify a ·) := by
  have turned : (unify b c).bind (unify a ·) = (unify b c).bind (unify · a) :=
    Option.bind_congr fun t _ => unify_comm a t
  apply eq_of_bounds
  intro d
  rw [turned, bind_unify_le, bind_unify_le, ← isJoin_unify a b d, ← isJoin_unify b c d]
  tauto

/-- The common type is that of the types that are there, in any order and however often. -/
theorem common_congr {types others : List Ty} (same : ∀ t, t ∈ types ↔ t ∈ others) :
    common types = common others := by
  apply eq_of_bounds
  intro d
  rw [← common_isLub, ← common_isLub]
  exact forall_congr' fun t => imp_congr_left (same t)

/-- The common type grows with the types, up to what bounds them. -/
theorem common_between {types others : List Ty} {c bound : Ty} (shared : common types = some c)
    (grown : ∀ t ∈ types, ∃ other ∈ others, t ≤ other) (bounded : ∀ t ∈ others, t ≤ bound) :
    ∃ d, common others = some d ∧ c ≤ d ∧ d ≤ bound := by
  obtain ⟨d, again, below⟩ := (common_isLub others bound).mp bounded
  have all : ∀ t ∈ types, t ≤ d := by
    intro t member
    obtain ⟨other, inOthers, grows⟩ := grown t member
    exact le_trans grows (le_common again inOthers)
  obtain ⟨least, same, above⟩ := (common_isLub types d).mp all
  obtain rfl : c = least := Option.some.inj (shared.symm.trans same)
  exact ⟨d, again, above, below⟩

theorem mem_upperBounds_pair {a b d : Ty} : d ∈ upperBounds {a, b} ↔ a ≤ d ∧ b ≤ d := by
  simp [upperBounds]

/-- The types above a least upper bound are the bounds. -/
theorem isLUB_pair {a b t : Ty} : IsLUB {a, b} t ↔ ∀ d, (a ≤ d ∧ b ≤ d) ↔ t ≤ d := by
  constructor
  · rintro ⟨bound, least⟩ d
    have above := mem_upperBounds_pair.mp bound
    refine ⟨fun both => least (mem_upperBounds_pair.mpr both), fun below => ?_⟩
    exact ⟨le_trans above.1 below, le_trans above.2 below⟩
  · intro bounds
    refine ⟨mem_upperBounds_pair.mpr ((bounds t).mpr (le_refl t)), fun d bound => ?_⟩
    exact (bounds d).mp (mem_upperBounds_pair.mp bound)

theorem unify_eq_some_iff {a b t : Ty} : unify a b = some t ↔ IsLUB {a, b} t := by
  rw [isLUB_pair]
  constructor
  · intro joined d
    rw [isJoin_unify a b d, joined]
    simp
  · intro bounds
    apply eq_of_bounds
    intro d
    rw [← isJoin_unify a b d, bounds d]
    simp

theorem unify_eq_none_iff {a b : Ty} : unify a b = none ↔ ¬ BddAbove {a, b} := by
  constructor
  · rintro failed ⟨d, bound⟩
    obtain ⟨c, joined, -⟩ := (isJoin_unify a b d).mp (mem_upperBounds_pair.mp bound)
    rw [failed] at joined
    cases joined
  · intro unbounded
    by_contra joined
    obtain ⟨t, joined⟩ := Option.ne_none_iff_exists'.mp joined
    exact unbounded ⟨t, (unify_eq_some_iff.mp joined).1⟩

/-- Objects are below those with the same names and greater attributes. In this order unification
gives the least type above two types, and fails where no type is above both. So neither the order of
types nor their repetition matters, be it to unification or to the common type of values. -/
theorem isLUB_unify (a b : Ty) :
    (∀ as bs, Dict.Sorted as → Dict.Sorted bs → (object as ≤ object bs ↔
        (∀ name, name ∈ Dict.keys as ↔ name ∈ Dict.keys bs) ∧
          ∀ name a b, Dict.get? as name = some a → Dict.get? bs name = some b → a ≤ b)) ∧
      (∀ t, unify a b = some t ↔ IsLUB {a, b} t) ∧ (unify a b = none ↔ ¬ BddAbove {a, b}) ∧
      (a.Ordered → b.Ordered → ∀ t, unify a b = some t → t.Ordered) ∧
      (unify a b = unify b a ∧ unify a a = some a ∧
        ∀ c, (unify a b).bind (unify · c) = (unify b c).bind (unify a ·)) ∧
      ∀ values others : List Value, (∀ value, value ∈ values ↔ value ∈ others) →
        common (values.map Value.ty) = common (others.map Value.ty) := by
  refine ⟨fun as bs => object_le_object, fun t => unify_eq_some_iff, unify_eq_none_iff,
    fun first second t joined => ordered_of_unify joined first second,
    ⟨unify_comm a b, unify_self a, unify_assoc a b⟩, fun values others same => ?_⟩
  apply common_congr
  intro t
  simp only [List.mem_map, same]

end ScriptHost.Ty
