import ScriptHost.Script.Arithmetic

set_option autoImplicit false

namespace ScriptHost.Script

/-- A table lists its entries in the order in which their keys came. An entry that was taken out
keeps its place with nil as its value, so that a traversal can go on past it. -/
structure Table where
  entries : List (Datum × Datum)
  metatable : Option Nat
  /-- How many values from key one on were given when the table was made. -/
  slots : Nat
deriving Inhabited, Repr

namespace Table

def empty : Table := ⟨[], none, 0⟩

/-- The value under a key. -/
def get (t : Table) (key : Datum) : Datum := (t.entries.lookup key.asKey).getD .nil

def item (t : Table) (n : Nat) : Datum := t.get (.integer n)

/-- Puts a value under a key that has a place, or behind all others; nil needs no new place. -/
def insertEntry (key value : Datum) : List (Datum × Datum) → List (Datum × Datum)
  | [] => if value.isNil then [] else [(key, value)]
  | (k, v) :: rest =>
      if k = key then (k, value) :: rest else (k, v) :: insertEntry key value rest

def set (t : Table) (key value : Datum) : Table :=
  { t with entries := insertEntry key.asKey value t.entries }

/-- Whether a value can be a key. -/
def isKey : Datum → Bool
  | .nil => false
  | .float x => !x.isNaN
  | _ => true

/-- The entries that are there. -/
def present (t : Table) : List (Datum × Datum) := t.entries.filter fun e => !e.2.isNil

/-- The entry that follows a key in a traversal, from the start if the key is nil; none at the end,
and a failure if the key has no place. -/
def next? (t : Table) (key : Datum) : Option (Option (Datum × Datum)) :=
  if key.isNil then some (t.entries.find? fun e => !e.2.isNil)
  else
    match t.entries.dropWhile (·.1 != key.asKey) with
    | [] => none
    | _ :: rest => some (rest.find? fun e => !e.2.isNil)

/-- Halves an interval whose left end is there and whose right end is not, down to a border. -/
def halve (t : Table) : Nat → Nat → Nat → Nat
  | 0, low, _ => low
  | fuel + 1, low, high =>
      if high - low ≤ 1 then low
      else
        let middle := (low + high) / 2
        if (t.item middle).isNil then halve t fuel low middle else halve t fuel middle high

/-- Doubles a position until nothing is there, and halves back to a border. -/
def double (t : Table) : Nat → Nat → Nat
  | 0, low => low
  | fuel + 1, low =>
      if (t.item (2 * low)).isNil then halve t 64 low (2 * low) else double t fuel (2 * low)

/-- The length: a number with something under it, or zero, and nothing under the next. -/
def length (t : Table) : Nat :=
  if 0 < t.slots ∧ (t.item t.slots).isNil then
    if 2 ≤ t.slots ∧ !(t.item (t.slots - 1)).isNil then t.slots - 1 else halve t 64 0 t.slots
  else if (t.item (t.slots + 1)).isNil then t.slots
  else double t 64 (max t.slots 1)

/-- The table of some values under the keys from one on. -/
def ofList (values : List Datum) : Table :=
  ⟨((List.range' 1 values.length).map fun n : Nat => Datum.integer n).zip values, none,
    values.length⟩

end Table

/-- A function of a script, with the cells of the variables around it, the latest first. -/
structure Closure where
  body : Function
  cells : List Nat
deriving Inhabited

structure Heap where
  tables : Array Table
  cells : Array Datum
  closures : Array Closure
  /-- How many threads there are. -/
  threads : Nat
deriving Inhabited

namespace Heap

/-- Where the tables are that every script finds. -/
def globalsId : Nat := 0

def stringMetatableId : Nat := 1

def table (h : Heap) (id : Nat) : Table := h.tables.getD id .empty

/-- The metatable of a value. -/
def metatableOf? (h : Heap) : Datum → Option Nat
  | .table id => (h.table id).metatable
  | .string _ => some stringMetatableId
  | _ => none

/-- What the metatable of a value holds under a name; nil without one. -/
def handler (h : Heap) (value : Datum) (name : String) : Datum :=
  match h.metatableOf? value with
  | some id => (h.table id).get (.text name)
  | none => .nil

end Heap

/-- Why a script stops. -/
inductive Stop where
  | error (value : Datum)
  /-- A loop ran longer than any answer is waited for. -/
  | exhausted

/-- A computation of a script. -/
abbrev Run := EStateM Stop Heap

namespace Run

def raise {α : Type} (value : Datum) : Run α := throw (.error value)

def newTable (t : Table) : Run Datum :=
  modifyGet fun h => (.table h.tables.size, { h with tables := h.tables.push t })

def table (id : Nat) : Run Table := return (← get).table id

def changeTable (id : Nat) (change : Table → Table) : Run Unit :=
  modify fun h => { h with tables := h.tables.modify id change }

def newCell (value : Datum) : Run Nat :=
  modifyGet fun h => (h.cells.size, { h with cells := h.cells.push value })

def cell (id : Nat) : Run Datum := return (← get).cells.getD id .nil

def setCell (id : Nat) (value : Datum) : Run Unit :=
  modify fun h => { h with cells := h.cells.setIfInBounds id value }

def newClosure (body : Function) (cells : List Nat) : Run Datum :=
  modifyGet fun h =>
    (.closure h.closures.size, { h with closures := h.closures.push ⟨body, cells⟩ })

def closure (id : Nat) : Run Closure := return (← get).closures.getD id default

def newThread : Run Datum :=
  modifyGet fun h => (.thread h.threads, { h with threads := h.threads + 1 })

def handler (value : Datum) (name : String) : Run Datum := return (← get).handler value name

/-- What a value is called by its type, or by the name that its metatable gives. -/
def typeName (value : Datum) : Run Bytes := do
  match ← handler value "__name" with
  | .string name => return name
  | _ => return utf8 value.typeName

end Run

end ScriptHost.Script
