import ScriptHost.Number.Text

set_option autoImplicit false

namespace ScriptHost.Engine

/-- A key of a table. -/
inductive Key where
  | integer (value : Int)
  | number (value : Binary64)
  | string (value : String)
  | foreign (typeName : String)
deriving DecidableEq, Inhabited, Repr

/-- The text of a key, under which its entry stands in an object. A key that has none yields the
name of its type. -/
def Key.name : Key → Except String String
  | integer value => .ok (toString value)
  | number value => .ok value.plainText
  | string value => .ok value
  | foreign typeName => .error typeName

/-- Whether a key is not a number though it is a float: no table has such a key. -/
def Key.isNaN : Key → Bool
  | number value => value.isNaN
  | _ => false

/-- Values as the engine holds them, detached from its heap. The order of the entries of a table is
the order of traversal and carries no meaning. -/
inductive Tree where
  | nil
  | bool (value : Bool)
  | number (value : Binary64)
  | string (value : String)
  | table (entries : List (Key × Tree))
  | foreign (typeName : String)
deriving Inhabited, Repr

end ScriptHost.Engine
