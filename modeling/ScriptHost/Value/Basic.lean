import ScriptHost.Dict
import ScriptHost.Number.Binary64
import ScriptHost.Ty.Basic

set_option autoImplicit false

namespace ScriptHost

/-- Typed values. The entries of maps and objects ascend by name; `unknown` holds the place of a
value that is not known yet. -/
inductive Value where
  | null
  | bool (value : Bool)
  | number (value : Binary64)
  | string (value : String)
  | list (items : List Value)
  | set (items : List Value)
  | tuple (items : List Value)
  | map (entries : List (String × Value))
  | object (entries : List (String × Value))
  | unknown (ty : Ty)
deriving Inhabited, Repr

namespace Value

/-- The name of a value's shape. -/
def kind : Value → String
  | null => "null"
  | bool _ => "bool"
  | number _ => "number"
  | string _ => "string"
  | list _ => "list"
  | set _ => "set"
  | tuple _ => "tuple"
  | map _ => "map"
  | object _ => "object"
  | unknown _ => "unknown"

def isNull : Value → Bool
  | null => true
  | _ => false

def asString? : Value → Option String
  | string value => some value
  | _ => none

/-- The number equal or nearest to an integer. -/
def ofInt (n : Int) : Value := number (.ofInt n)

mutual

/-- Equality by parts: numbers are compared as numbers, so the zeros are equal and what is not a
number differs from itself. -/
def equal : Value → Value → Bool
  | null, null => true
  | bool a, bool b => a == b
  | number a, number b => a.equal b
  | string a, string b => a == b
  | list a, list b | set a, set b | tuple a, tuple b => equalItems a b
  | map a, map b | object a, object b => equalEntries a b
  | unknown a, unknown b => a == b
  | _, _ => false

def equalItems : List Value → List Value → Bool
  | [], [] => true
  | a :: as, b :: bs => equal a b && equalItems as bs
  | _, _ => false

def equalEntries : List (String × Value) → List (String × Value) → Bool
  | [], [] => true
  | (j, a) :: as, (k, b) :: bs => j == k && equal a b && equalEntries as bs
  | _, _ => false

end

mutual

/-- The inferred type. A list without a common element type is typed as a tuple, a map without one
as an object, and a set without one as a set of dynamic values. -/
def ty : Value → Ty
  | null => .dynamic
  | bool _ => .bool
  | number _ => .number
  | string _ => .string
  | list items =>
      let types := itemTypes items
      match Ty.common types with
      | some element => .list element
      | none => .tuple types
  | set items => .set ((Ty.common (itemTypes items)).getD .dynamic)
  | tuple items => .tuple (itemTypes items)
  | map entries =>
      let types := entryTypes entries
      match Ty.common (types.map Prod.snd) with
      | some element => .map element
      | none => .object types
  | object entries => .object (entryTypes entries)
  | unknown ty => ty

def itemTypes : List Value → List Ty
  | [] => []
  | item :: rest => ty item :: itemTypes rest

def entryTypes : List (String × Value) → List (String × Ty)
  | [] => []
  | (key, value) :: rest => (key, ty value) :: entryTypes rest

end

end Value

end ScriptHost
