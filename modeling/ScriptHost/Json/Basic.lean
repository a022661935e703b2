import ScriptHost.Dict
import ScriptHost.Number.Binary64

set_option autoImplicit false

namespace ScriptHost

/-- JSON documents. An object read from text has its fields in ascending order of their names; a
document built for writing lists its fields in the order in which they are written. -/
inductive Json where
  | null
  | bool (value : Bool)
  | integer (value : Int)
  | float (value : Binary64)
  | string (value : String)
  | array (items : List Json)
  | object (fields : List (String × Json))
deriving Inhabited, Repr

namespace Json

/-- The name of a document's shape. -/
def kind : Json → String
  | null => "null"
  | bool _ => "bool"
  | integer _ | float _ => "number"
  | string _ => "string"
  | array _ => "array"
  | object _ => "object"

def asString? : Json → Option String
  | string value => some value
  | _ => none

end Json

end ScriptHost
