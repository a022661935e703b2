import ScriptHost.Engine.Error
import ScriptHost.Engine.Tree
import ScriptHost.Value.Basic

set_option autoImplicit false

namespace ScriptHost.Engine

mutual

/-- The tree of a value: sequences are keyed from zero, collections by name, and null is nil at
every depth. A value that is not known has none. -/
def lower : Value → Except CallError Tree
  | .null => .ok .nil
  | .bool value => .ok (.bool value)
  | .number value => .ok (.number value)
  | .string value => .ok (.string value)
  | .list items | .set items | .tuple items => (lowerItems 0 items).map .table
  | .map entries | .object entries => (lowerEntries entries).map .table
  | .unknown ty => .error (.unsupportedType ty)

/-- Items as entries with rising integer keys. -/
def lowerItems (position : Nat) : List Value → Except CallError (List (Key × Tree))
  | [] => .ok []
  | item :: rest =>
      match lower item with
      | .error e => .error e
      | .ok tree => (lowerItems (position + 1) rest).map ((.integer position, tree) :: ·)

def lowerEntries : List (String × Value) → Except CallError (List (Key × Tree))
  | [] => .ok []
  | (name, value) :: rest =>
      match lower value with
      | .error e => .error e
      | .ok tree => (lowerEntries rest).map ((.string name, tree) :: ·)

end

end ScriptHost.Engine
