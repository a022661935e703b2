import ScriptHost.Engine.Error
import ScriptHost.Engine.Tree
import ScriptHost.Script.Heap

set_option autoImplicit false

namespace ScriptHost.Engine

open Script (Datum Heap Table)

/-- An error that the engine itself reports. -/
def engineError (text : String) : CallError := .engine ("runtime error: " ++ text)

/-- The value of a key. -/
def Key.toDatum : Key → Except CallError Datum
  | integer value => .ok (.integer value)
  | number value => .ok (.float value)
  | string value => .ok (.text value)
  | foreign typeName =>
      .error (engineError ("cannot use a " ++ typeName ++ " key inside the engine"))

mutual

/-- Puts a tree into a heap, and gives its value there. Every number goes in as a float. -/
def push (h : Heap) : Tree → Except CallError (Datum × Heap)
  | .nil => .ok (.nil, h)
  | .bool value => .ok (.bool value, h)
  | .number value => .ok (.float value, h)
  | .string value => .ok (.text value, h)
  | .table entries =>
      let id := h.tables.size
      (pushEntries id { h with tables := h.tables.push .empty } entries).map ((.table id, ·))
  | .foreign typeName =>
      .error (engineError ("cannot pass a " ++ typeName ++ " value into the engine"))

/-- Puts entries into a table of a heap. -/
def pushEntries (id : Nat) (h : Heap) : List (Key × Tree) → Except CallError Heap
  | [] => .ok h
  | (key, tree) :: rest =>
      match key.toDatum with
      | .error e => .error e
      | .ok datum =>
          match push h tree with
          | .error e => .error e
          | .ok (value, h) =>
              if key.isNaN then .error (engineError "table index is NaN")
              else pushEntries id { h with tables := h.tables.modify id (·.set datum value) } rest

end

/-- The key of a value. -/
def readKey : Datum → Except CallError Key
  | .integer value => .ok (.integer value)
  | .float value => .ok (.number value)
  | .string bytes =>
      match ofUtf8? bytes with
      | some value => .ok (.string value)
      | none => .error (.badTableIndex "non-UTF-8 string")
  | key => .ok (.foreign key.typeName)

/-- The tree of a value that is no table. -/
def readScalar : Datum → Except CallError Tree
  | .nil => .ok .nil
  | .bool value => .ok (.bool value)
  | .integer value => .ok (.number (.ofInt value))
  | .float value => .ok (.number value)
  | .string bytes =>
      match ofUtf8? bytes with
      | some value => .ok (.string value)
      | none => .error (.unhandledReturnType "non-UTF-8 string")
  | value => .ok (.foreign value.typeName)

/-- The entries of a table, whose values are read by a given reader. -/
def readEntries (value : Datum → Except CallError Tree) :
    List (Datum × Datum) → Except CallError (List (Key × Tree))
  | [] => .ok []
  | entry :: rest =>
      match readKey entry.1 with
      | .error e => .error e
      | .ok key =>
          match value entry.2 with
          | .error e => .error e
          | .ok tree => (readEntries value rest).map ((key, tree) :: ·)

/-- The tree of a value, below some tables that it must not hold again. These are different, so that
no more levels than tables are reached. -/
def readBelow (h : Heap) : Nat → List Nat → Datum → Except CallError Tree
  | levels + 1, ancestors, .table id =>
      if ancestors.contains id then .error .recursiveTable
      else
        (readEntries (readBelow h levels (id :: ancestors)) (h.table id).present).map .table
  | 0, _, .table _ => .error .recursiveTable
  | _, _, value => readScalar value

/-- The tree of a value. -/
def read (h : Heap) (value : Datum) : Except CallError Tree :=
  readBelow h (h.tables.size + 1) [] value

end ScriptHost.Engine
