import ScriptHost.Engine.Error
import ScriptHost.Engine.Tree
import ScriptHost.Value.Basic

set_option autoImplicit false

namespace ScriptHost.Engine

/-- The texts of `count` numbers from `first` on. -/
def indexNames (first count : Nat) : List String := (List.range' first count).map toString

/-- The values under some names in order, if all of them are there. -/
def slots (names : List String) (d : List (String × Value)) : Option (List Value) :=
  names.mapM (Dict.get? d)

/-- A dictionary as a list, if its names count from zero or from one without a gap, else as an
object, and so is an empty one. -/
def classify (d : List (String × Value)) : Value :=
  if d.isEmpty then .object d
  else
    let first := if Dict.contains d "0" then 0 else 1
    match slots (indexNames first d.length) d with
    | some items => .list items
    | none => .object d

mutual

/-- The value of a tree. -/
def raise : Tree → Except CallError Value
  | .nil => .ok .null
  | .bool value => .ok (.bool value)
  | .number value => .ok (.number value)
  | .string value => .ok (.string value)
  | .table entries => (raiseEntries [] entries).map classify
  | .foreign typeName => .error (.unhandledReturnType typeName)

/-- Adds entries to a dictionary by the texts of their keys; of two with one text the later counts.
-/
def raiseEntries (d : List (String × Value)) :
    List (Key × Tree) → Except CallError (List (String × Value))
  | [] => .ok d
  | (key, tree) :: rest =>
      match key.name with
      | .error keyType => .error (.badTableIndex keyType)
      | .ok name =>
          match raise tree with
          | .error e => .error e
          | .ok value => raiseEntries (Dict.insert name value d) rest

end

/-- The value that a call returns. To return nothing, or nil, is an error. -/
def raiseReturn : Option Tree → Except CallError Value
  | none | some .nil => .error .missingReturnValue
  | some tree => raise tree

end ScriptHost.Engine
