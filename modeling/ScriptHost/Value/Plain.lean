import ScriptHost.Json.Basic
import ScriptHost.Value.Basic

set_option autoImplicit false

namespace ScriptHost.Value

mutual

/-- The value of a plain document. Arrays are tuples and objects are objects, since plain JSON says
nothing of a common type. -/
def ofJson : Json → Value
  | .null => null
  | .bool value => bool value
  | .integer value => ofInt value
  | .float value => number value
  | .string value => string value
  | .array items => tuple (itemsOfJson items)
  | .object fields => object (entriesOfJson fields)

def itemsOfJson : List Json → List Value
  | [] => []
  | item :: rest => ofJson item :: itemsOfJson rest

def entriesOfJson : List (String × Json) → List (String × Value)
  | [] => []
  | (name, document) :: rest => (name, ofJson document) :: entriesOfJson rest

end

/-- The document of a finite number: an integer if it is whole and fits in a signed word. -/
def numberToJson (x : Binary64) : Json :=
  match x.integral with
  | some n => .integer n
  | none => if x.isFinite then .float x else .null

mutual

/-- A value as a plain document; what is unknown or not finite becomes null. -/
def toJson : Value → Json
  | null | unknown _ => .null
  | bool value => .bool value
  | number value => numberToJson value
  | string value => .string value
  | list items | set items | tuple items => .array (itemsToJson items)
  | map entries | object entries => .object (entriesToJson entries)

def itemsToJson : List Value → List Json
  | [] => []
  | item :: rest => toJson item :: itemsToJson rest

def entriesToJson : List (String × Value) → List (String × Json)
  | [] => []
  | (key, value) :: rest => (key, toJson value) :: entriesToJson rest

end

end ScriptHost.Value
