import Mathlib.Data.List.Forall2
import ScriptHost.Engine.Crossing
import ScriptHost.Proofs.Engine.Settle
import ScriptHost.Proofs.Text.Utf8

set_option autoImplicit false

/- Trees that go into a heap and come out again. A tree takes the tables behind those that were
there, and what it puts into them stands for the settled tree: whatever the other tables hold,
reading the value gives that tree. -/
namespace ScriptHost.Engine

open Script (Datum Heap Table)

/-- A heap has all tables of another, unchanged but for some, and everything else. -/
structure Grown (h : Heap) (changed : Nat → Prop) (h' : Heap) : Prop where
  size : h.tables.size ≤ h'.tables.size
  table : ∀ id < h.tables.size, ¬ changed id → h'.table id = h.table id
  cells : h'.cells = h.cells
  closures : h'.closures = h.closures
  threads : h'.threads = h.threads

theorem Grown.refl (h : Heap) (changed : Nat → Prop) : Grown h changed h :=
  ⟨Nat.le_refl _, fun _ _ _ => rfl, rfl, rfl, rfl⟩

theorem Grown.trans {h₁ h₂ h₃ : Heap} {changed : Nat → Prop} (first : Grown h₁ changed h₂)
    (second : Grown h₂ changed h₃) : Grown h₁ changed h₃ where
  size := Nat.le_trans first.size second.size
  table id inside same := by
    have later : id < h₂.tables.size := Nat.lt_of_lt_of_le inside first.size
    rw [second.table id later same, first.table id inside same]
  cells := second.cells.trans first.cells
  closures := second.closures.trans first.closures
  threads := second.threads.trans first.threads

theorem Grown.mono {h h' : Heap} {changed more : Nat → Prop} (grown : Grown h changed h')
    (weaker : ∀ id < h.tables.size, changed id → more id) : Grown h more h' where
  size := grown.size
  table id inside same := grown.table id inside fun now => same (weaker id inside now)
  cells := grown.cells
  closures := grown.closures
  threads := grown.threads

theorem table_push (h : Heap) (t : Table) (id : Nat) :
    ({ h with tables := h.tables.push t } : Heap).table id =
      if id = h.tables.size then t else h.table id := by
  simp only [Heap.table, Array.getD_eq_getD_getElem?, Array.getElem?_push]
  split <;> simp

theorem table_modify {h : Heap} {changed : Nat} (inside : changed < h.tables.size)
    (change : Table → Table) (id : Nat) :
    ({ h with tables := h.tables.modify changed change } : Heap).table id =
      if id = changed then change (h.table id) else h.table id := by
  simp only [Heap.table, Array.getD_eq_getD_getElem?, Array.getElem?_modify]
  by_cases same : changed = id
  · subst same
    simp [inside]
  · simp [same, Ne.symm same]

theorem grown_push (h : Heap) (t : Table) (changed : Nat → Prop) :
    Grown h changed { h with tables := h.tables.push t } where
  size := by simp
  table id inside _ := by
    rw [table_push, if_neg (by omega)]
  cells := rfl
  closures := rfl
  threads := rfl

theorem grown_modify {h : Heap} {id : Nat} (inside : id < h.tables.size)
    (change : Table → Table) :
    Grown h (· = id) { h with tables := h.tables.modify id change } where
  size := by simp
  table other _ same := by
    rw [table_modify inside, if_neg same]
  cells := rfl
  closures := rfl
  threads := rfl

/-- A value stands for a tree if reading it gives the tree, as long as the tables from one number
up to another are those of a heap. -/
structure Stands (h : Heap) (low high : Nat) (value : Datum) (tree : Tree) : Prop where
  isNil : value.isNil = tree.isNil
  read : ∀ (h' : Heap) (levels : Nat) (ancestors : List Nat),
    (∀ id, low ≤ id → id < high → h'.table id = h.table id) → high ≤ low + levels →
      (∀ ancestor ∈ ancestors, ancestor < low) → readBelow h' levels ancestors value = .ok tree

section Stands

variable {h h' : Heap} {low high low' high' : Nat} {value : Datum} {tree : Tree}

theorem Stands.mono (stands : Stands h low high value tree) (lower : low' ≤ low)
    (higher : high ≤ high') (same : ∀ id, low ≤ id → id < high → h'.table id = h.table id) :
    Stands h' low' high' value tree where
  isNil := stands.isNil
  read := by
    intro other levels ancestors agree enough below
    have agree' : ∀ id, low ≤ id → id < high → other.table id = h.table id := by
      intro id atLeast less
      rw [agree id (by omega) (by omega), same id atLeast less]
    have below' : ∀ ancestor ∈ ancestors, ancestor < low := by
      intro ancestor member
      have := below ancestor member
      omega
    exact stands.read other levels ancestors agree' (by omega) below'

theorem stands_scalar (noTable : ∀ id, value ≠ .table id) (isNil : value.isNil = tree.isNil)
    (scalar : readScalar value = .ok tree) : Stands h low high value tree where
  isNil := isNil
  read := by
    intro other levels ancestors _ _ _
    cases value with
    | table id => exact absurd rfl (noTable id)
    | _ => cases levels <;> exact scalar

/-- The entries of a table stand for the entries of a tree, with what they refer to behind it. -/
def EntriesStand (h : Heap) (id high : Nat) (entries : List (Datum × Datum))
    (trees : List (Key × Tree)) : Prop :=
  List.Forall₂
    (fun entry tree => tree.1.toDatum = .ok entry.1 ∧ Stands h (id + 1) high entry.2 tree.2)
    entries trees

theorem EntriesStand.mono {id : Nat} {entries : List (Datum × Datum)} {trees : List (Key × Tree)}
    (stand : EntriesStand h id high entries trees) (higher : high ≤ high')
    (same : ∀ other, id < other → other < high → h'.table other = h.table other) :
    EntriesStand h' id high' entries trees :=
  List.Forall₂.imp (fun _ _ both => ⟨both.1, both.2.mono (Nat.le_refl _) higher same⟩) stand

end Stands

theorem toDatum_settled {key : Key} {datum : Datum} (found : key.toDatum = .ok datum) :
    key.settled.toDatum = .ok datum.asKey := by
  cases key with
  | number value =>
      obtain rfl : Datum.float value = datum := by simpa [Key.toDatum] using found
      simp only [Key.settled, Datum.asKey]
      cases value.integral <;> rfl
  | integer value =>
      obtain rfl : Datum.integer value = datum := by simpa [Key.toDatum] using found
      rfl
  | string value =>
      obtain rfl : Datum.text value = datum := by simpa [Key.toDatum] using found
      rfl
  | foreign name => simp [Key.toDatum] at found

theorem readKey_toDatum {key : Key} {datum : Datum} (found : key.toDatum = .ok datum) :
    readKey datum = .ok key := by
  cases key with
  | number value =>
      obtain rfl : Datum.float value = datum := by simpa [Key.toDatum] using found
      rfl
  | integer value =>
      obtain rfl : Datum.integer value = datum := by simpa [Key.toDatum] using found
      rfl
  | string value =>
      obtain rfl : Datum.text value = datum := by simpa [Key.toDatum] using found
      rw [Datum.text, readKey, ofUtf8?_utf8]
  | foreign name => simp [Key.toDatum] at found

theorem exists_toDatum {key : Key} (native : ∀ typeName, key ≠ .foreign typeName) :
    ∃ datum, key.toDatum = .ok datum := by
  cases key with
  | foreign name => exact absurd rfl (native name)
  | _ => exact ⟨_, rfl⟩

/-- Keys are the same in a heap as in a tree. -/
theorem toDatum_inj {key key' : Key} {datum datum' : Datum} (found : key.toDatum = .ok datum)
    (found' : key'.toDatum = .ok datum') : datum = datum' ↔ key = key' := by
  constructor
  · rintro rfl
    have same := readKey_toDatum found
    rw [readKey_toDatum found'] at same
    exact (Except.ok.inj same).symm
  · rintro rfl
    rw [found] at found'
    exact Except.ok.inj found'

theorem EntriesStand.insertEntry {h : Heap} {id high : Nat} {entries : List (Datum × Datum)}
    {trees : List (Key × Tree)} {datum value : Datum} {key : Key} {tree : Tree}
    (stand : EntriesStand h id high entries trees) (found : key.toDatum = .ok datum)
    (stands : Stands h (id + 1) high value tree) :
    EntriesStand h id high (Table.insertEntry datum value entries) (place key tree trees) := by
  induction stand with
  | nil =>
      rw [Table.insertEntry, place, stands.isNil]
      split
      · exact .nil
      · exact .cons ⟨found, stands⟩ .nil
  | @cons entry other entries trees both rest ih =>
      rw [Table.insertEntry, place]
      by_cases same : entry.1 = datum
      · rw [if_pos same, if_pos ((toDatum_inj both.1 found).mp same)]
        exact .cons ⟨both.1, stands⟩ rest
      · rw [if_neg same, if_neg (mt (toDatum_inj both.1 found).mpr same)]
        exact .cons both ih

theorem EntriesStand.present {h : Heap} {id high : Nat} {t : Table} {trees : List (Key × Tree)}
    (stand : EntriesStand h id high t.entries trees) :
    EntriesStand h id high t.present (present trees) := by
  refine List.rel_filter ?_ stand
  intro entry tree both
  show (!entry.2.isNil) = true ↔ (!tree.2.isNil) = true
  rw [both.2.isNil]

/-- What stands in a table is read from it, below the table and all that holds it. -/
theorem readEntries_of_stand {h h' : Heap} {id high levels : Nat} {ancestors : List Nat}
    {entries : List (Datum × Datum)} {trees : List (Key × Tree)}
    (stand : EntriesStand h id high entries trees)
    (agree : ∀ other, id < other → other < high → h'.table other = h.table other)
    (enough : high ≤ id + 1 + levels) (below : ∀ ancestor ∈ ancestors, ancestor < id) :
    readEntries (readBelow h' levels (id :: ancestors)) entries = .ok trees := by
  have below' : ∀ ancestor ∈ id :: ancestors, ancestor < id + 1 := by
    intro ancestor member
    rcases List.mem_cons.mp member with rfl | above
    · omega
    · have := below ancestor above
      omega
  induction stand with
  | nil => rfl
  | @cons entry tree entries trees both _ ih =>
      have value := both.2.read h' levels (id :: ancestors) agree enough below'
      simp only [readEntries, readKey_toDatum both.1, value, ih]
      rfl

/-- A table stands for the entries that stand in it. -/
theorem stands_table {h : Heap} {id high : Nat} {trees : List (Key × Tree)} (inside : id < high)
    (stand : EntriesStand h id high (h.table id).entries trees) :
    Stands h id high (.table id) (.table (present trees)) where
  isNil := rfl
  read := by
    intro other levels ancestors agree enough below
    cases levels with
    | zero => omega
    | succ fewer =>
        have fresh : ancestors.contains id = false := by
          rw [Bool.eq_false_iff]
          intro member
          have := below id (List.contains_iff_mem.mp member)
          omega
        have agree' : ∀ inner, id < inner → inner < high → other.table inner = h.table inner := by
          intro inner above less
          exact agree inner (by omega) less
        have entries : readEntries (readBelow other fewer (id :: ancestors)) (h.table id).present =
            .ok (present trees) :=
          readEntries_of_stand stand.present agree' (by omega) below
        rw [readBelow, fresh, agree id (Nat.le_refl _) inside, if_neg (by simp), entries]
        rfl

/-- What a push of a tree leaves behind: the heap has grown, and the value stands for the settled
tree in what is new. -/
def Pushed (h : Heap) (tree : Tree) (value : Datum) (h' : Heap) : Prop :=
  Grown h (fun _ => False) h' ∧ Stands h' h.tables.size h'.tables.size value (settle tree)

/-- One entry goes into a table that is being filled. The table comes before all that the new value
refers to, so neither disturbs the other. -/
theorem Pushed.set {h h' next : Heap} {tree : Tree} {value datum : Datum} {id : Nat} {key : Key}
    {placed : List (Key × Tree)} (pushed : Pushed h tree value h') (inside : id < h.tables.size)
    (found : key.toDatum = .ok datum)
    (stand : EntriesStand h id h.tables.size (h.table id).entries placed)
    (made : { h' with tables := h'.tables.modify id (·.set datum value) } = next) :
    Grown h (· = id) next ∧ EntriesStand next id next.tables.size (next.table id).entries
      (place key.settled (settle tree) placed) := by
  obtain ⟨grown, stands⟩ := pushed
  have inside' : id < h'.tables.size := Nat.lt_of_lt_of_le inside grown.size
  have changed : Grown h' (· = id) next := made ▸ grown_modify inside' (·.set datum value)
  have entries : (next.table id).entries =
      Table.insertEntry datum.asKey value (h.table id).entries := by
    rw [← made, table_modify inside', if_pos rfl, grown.table id inside not_false]
    rfl
  have old : EntriesStand h' id h'.tables.size (h.table id).entries placed :=
    stand.mono grown.size fun other _ less => grown.table other less not_false
  have new := old.insertEntry (toDatum_settled found)
    (stands.mono (by omega) (Nat.le_refl _) fun _ _ _ => rfl)
  have grownBefore : Grown h (· = id) h' := grown.mono fun _ _ never => never.elim
  refine ⟨grownBefore.trans changed, ?_⟩
  rw [entries]
  exact new.mono changed.size fun other above less => changed.table other less (by omega)

theorem pushEntries_stand {entries : List (Key × Tree)} {id : Nat}
    (each : ∀ entry ∈ entries, ∀ h value h', push h entry.2 = .ok (value, h') →
      Pushed h entry.2 value h')
    {h h' : Heap} {placed : List (Key × Tree)} (inside : id < h.tables.size)
    (stand : EntriesStand h id h.tables.size (h.table id).entries placed)
    (pushed : pushEntries id h entries = .ok h') :
    Grown h (· = id) h' ∧
      EntriesStand h' id h'.tables.size (h'.table id).entries (settleEntries placed entries) := by
  induction entries generalizing h placed with
  | nil =>
      obtain rfl : h = h' := by simpa [pushEntries] using pushed
      exact ⟨.refl h _, stand⟩
  | cons entry rest ih =>
      obtain ⟨key, tree⟩ := entry
      rw [List.forall_mem_cons] at each
      rw [pushEntries] at pushed
      cases found : key.toDatum with
      | error e => simp [found] at pushed
      | ok datum =>
          cases first : push h tree with
          | error e => simp [found, first] at pushed
          | ok both =>
              obtain ⟨value, after⟩ := both
              simp only [found, first] at pushed
              split at pushed
              · cases pushed
              obtain ⟨grown, standNext⟩ :=
                (each.1 h value after first).set inside found stand rfl
              have inside' := Nat.lt_of_lt_of_le inside grown.size
              obtain ⟨grownMore, standMore⟩ := ih each.2 inside' standNext pushed
              exact ⟨grown.trans grownMore, standMore⟩

theorem pushed_scalar {h : Heap} {tree : Tree} {value : Datum}
    (noTable : ∀ id, value ≠ .table id) (isNil : value.isNil = (settle tree).isNil)
    (scalar : readScalar value = .ok (settle tree)) : Pushed h tree value h :=
  ⟨.refl h _, stands_scalar noTable isNil scalar⟩

theorem push_stands (tree : Tree) :
    ∀ h value h', push h tree = .ok (value, h') → Pushed h tree value h' := by
  induction tree with
  | nil =>
      intro h value h' pushed
      obtain ⟨rfl, rfl⟩ : Datum.nil = value ∧ h = h' := by simpa [push] using pushed
      exact pushed_scalar (by simp) rfl rfl
  | bool b =>
      intro h value h' pushed
      obtain ⟨rfl, rfl⟩ : Datum.bool b = value ∧ h = h' := by simpa [push] using pushed
      exact pushed_scalar (by simp) rfl rfl
  | number x =>
      intro h value h' pushed
      obtain ⟨rfl, rfl⟩ : Datum.float x = value ∧ h = h' := by simpa [push] using pushed
      exact pushed_scalar (by simp) rfl rfl
  | string s =>
      intro h value h' pushed
      obtain ⟨rfl, rfl⟩ : Datum.text s = value ∧ h = h' := by simpa [push] using pushed
      refine pushed_scalar (by simp [Datum.text]) rfl ?_
      rw [Datum.text, readScalar, ofUtf8?_utf8]
      rfl
  | foreign name =>
      intro h value h' pushed
      simp [push] at pushed
  | table entries ih =>
      intro h value h' pushed
      rw [push] at pushed
      generalize made : { h with tables := h.tables.push .empty } = new at pushed
      cases filled : pushEntries h.tables.size new entries with
      | error e => simp [filled, Except.map] at pushed
      | ok after =>
          obtain ⟨rfl, rfl⟩ : Datum.table h.tables.size = value ∧ after = h' := by
            simpa [filled, Except.map] using pushed
          have size : new.tables.size = h.tables.size + 1 := by simp [← made]
          have empty : EntriesStand new h.tables.size new.tables.size
              (new.table h.tables.size).entries [] := by
            rw [← made, table_push, if_pos rfl]
            exact .nil
          obtain ⟨grown, stand⟩ := pushEntries_stand ih (by omega) empty filled
          have first : Grown h (· = h.tables.size) new := made ▸ grown_push h .empty _
          refine ⟨(first.trans grown).mono fun id inside now => ?_, stands_table ?_ stand⟩
          · omega
          · have := grown.size
            omega

/-- What is pushed is read back settled, whatever the heap held before. -/
theorem read_push {h h' : Heap} {tree : Tree} {value : Datum}
    (pushed : push h tree = .ok (value, h')) : read h' value = .ok (settle tree) := by
  have stands := (push_stands tree h value h' pushed).2
  exact stands.read h' (h'.tables.size + 1) [] (fun _ _ _ => rfl) (by omega) (by simp)

/-- Nothing but a foreign value or key keeps a tree from going in, unless a key is not a number. -/
theorem exists_push {tree : Tree} (portable : Portable tree) (indexed : Indexed tree) :
    ∀ h, ∃ value h', push h tree = .ok (value, h') := by
  induction portable with
  | nil => exact fun h => ⟨_, _, rfl⟩
  | bool value => exact fun h => ⟨_, _, rfl⟩
  | number value => exact fun h => ⟨_, _, rfl⟩
  | string value => exact fun h => ⟨_, _, rfl⟩
  | @table entries keys _ ih =>
      obtain ⟨numbers, inner⟩ := indexed_table.mp indexed
      have fill (id : Nat) (rest : List (Key × Tree)) (inside : rest ⊆ entries) :
          ∀ h, ∃ h', pushEntries id h rest = .ok h' := by
        induction rest with
        | nil => exact fun h => ⟨h, rfl⟩
        | cons entry rest further =>
            intro h
            rw [List.cons_subset] at inside
            obtain ⟨datum, found⟩ := exists_toDatum (keys entry inside.1)
            obtain ⟨value, h', pushed⟩ := ih entry inside.1 (inner entry inside.1) h
            have index : ¬ entry.1.isNaN = true := by simp [numbers entry inside.1]
            obtain ⟨last, filled⟩ := further inside.2
              { h' with tables := h'.tables.modify id (·.set datum value) }
            exact ⟨last, by simp only [pushEntries, found, pushed, filled, if_neg index]⟩
      intro h
      obtain ⟨h', filled⟩ := fill h.tables.size entries (List.Subset.refl _)
        { h with tables := h.tables.push .empty }
      exact ⟨_, h', by simp only [push, filled]; rfl⟩

end ScriptHost.Engine
