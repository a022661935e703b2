import ScriptHost.Json.Parser
import ScriptHost.Json.Printer
import ScriptHost.Text.Quoted
import ScriptHost.Ty.Basic

set_option autoImplicit false

namespace ScriptHost.Ty

/-- Why a document is not the notation of a type. -/
inductive Fault where
  | document (error : Json.ParseError)
  | primitive (name : String)
  | missingKind
  | elementCount (kind : String)
  | attributeMap
  | elementList
  | structural (kind : String)
  | unexpected (json : Json)

def Fault.message (fault : Fault) : String :=
  "invalid type description: " ++
    match fault with
    | document error => error.message
    | primitive name => "unsupported primitive type " ++ quote name
    | missingKind => "structural type without a kind"
    | elementCount kind => kind ++ " type needs exactly one element type"
    | attributeMap => "object type needs an attribute map"
    | elementList => "tuple type needs an element type list"
    | structural kind => "unsupported structural type " ++ quote kind
    | unexpected json => "unexpected " ++ json.text

mutual

/-- The notation of a type. -/
def toJson : Ty → Json
  | dynamic => .string "dynamic"
  | bool => .string "bool"
  | number => .string "number"
  | string => .string "string"
  | list element => .array [.string "list", element.toJson]
  | set element => .array [.string "set", element.toJson]
  | map element => .array [.string "map", element.toJson]
  | object attributes => .array [.string "object", .object (attributesToJson attributes)]
  | tuple elements => .array [.string "tuple", .array (elementsToJson elements)]

def elementsToJson : List Ty → List Json
  | [] => []
  | element :: rest => element.toJson :: elementsToJson rest

def attributesToJson : List (String × Ty) → List (String × Json)
  | [] => []
  | (name, ty) :: rest => (name, ty.toJson) :: attributesToJson rest

end

/-- The bytes of a type's notation. -/
def toBytes (ty : Ty) : List UInt8 := ty.toJson.render

/-- The structural type of a kind that has one element type. -/
def ofElement? (kind : String) : Option (Ty → Ty) :=
  if kind = "list" then some list
  else if kind = "set" then some set
  else if kind = "map" then some map
  else none

def ofPrimitive (name : String) : Except Fault Ty :=
  if name = "string" then .ok string
  else if name = "number" then .ok number
  else if name = "bool" then .ok bool
  else if name = "dynamic" then .ok dynamic
  else .error (.primitive name)

mutual

/-- Reads the notation of a type. An object type may list optional attributes behind its
attributes; the list is ignored. -/
def ofJson : Json → Except Fault Ty
  | .string name => ofPrimitive name
  | .array (.string kind :: operands) => ofOperands kind operands
  | .array _ => .error .missingKind
  | document => .error (.unexpected document)

/-- Reads what follows the kind of a structural type. -/
def ofOperands (kind : String) (operands : List Json) : Except Fault Ty :=
  match ofElement? kind with
  | some structural =>
      match operands with
      | [element] => (ofJson element).map structural
      | _ => .error (.elementCount kind)
  | none =>
      if kind = "object" then
        match operands with
        | [.object attributes] => (ofAttributes attributes).map object
        | [.object attributes, .array _] => (ofAttributes attributes).map object
        | _ => .error .attributeMap
      else if kind = "tuple" then
        match operands with
        | [.array elements] => (ofElements elements).map tuple
        | _ => .error .elementList
      else .error (.structural kind)

def ofElements : List Json → Except Fault (List Ty)
  | [] => .ok []
  | element :: rest => do return (← ofJson element) :: (← ofElements rest)

def ofAttributes : List (String × Json) → Except Fault (List (String × Ty))
  | [] => .ok []
  | (name, document) :: rest => do return (name, ← ofJson document) :: (← ofAttributes rest)

end

/-- Reads the notation of a type from bytes. -/
def ofBytes (bytes : List UInt8) : Except Fault Ty :=
  match Json.parse bytes with
  | .ok document => ofJson document
  | .error error => .error (.document error)

end ScriptHost.Ty
