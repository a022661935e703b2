import ScriptHost.Json.Printer
import ScriptHost.Text.Quoted
import ScriptHost.Ty.Notation

set_option autoImplicit false

namespace ScriptHost.Record

/-- Why a document is not a record. -/
inductive Fault where
  | missingField (name : String)
  | invalidType (found : Json) (expected : String)
  | invalidLength (count : Nat) (expected : String)
  | notOneKey
  | unknownVariant (name : String)
  | type (fault : Ty.Fault)

/-- A document as messages of this module show it. -/
def describe : Json → String
  | .null => "null"
  | .bool value => "boolean `" ++ (if value then "true" else "false") ++ "`"
  | .integer value => "integer `" ++ toString value ++ "`"
  | .float value => "floating point `" ++ (Json.float value).text ++ "`"
  | .string value => "string " ++ quote value
  | .array _ => "sequence"
  | .object _ => "map"

def Fault.message : Fault → String
  | missingField name => "missing field `" ++ name ++ "`"
  | invalidType found expected => "invalid type: " ++ describe found ++ ", expected " ++ expected
  | invalidLength count expected =>
      "invalid length " ++ toString count ++ ", expected " ++ expected
  | notOneKey => "invalid value: map, expected map with a single key"
  | unknownVariant name =>
      "unknown variant `" ++ name ++ "`, expected `error` or `warning`"
  | type fault => fault.message

/-- Reads a document as something. -/
abbrev Reader (α : Type) := Json → Except Fault α

def text : Reader String
  | .string value => .ok value
  | document => .error (.invalidType document "a string")

def flag : Reader Bool
  | .bool value => .ok value
  | document => .error (.invalidType document "a boolean")

def typeNotation : Reader Ty := fun document => (Ty.ofJson document).mapError .type

variable {α : Type}

def sequence (read : Reader α) : Reader (List α)
  | .array items => items.mapM read
  | document => .error (.invalidType document "a sequence")

/-- Null stands for nothing. -/
def nullable (read : Reader α) : Reader (Option α)
  | .null => .ok none
  | document => (read document).map some

/-- One field of a record that is being read. A record is an object with its fields, or an array
with their values in order. -/
structure Member (α : Type) where
  name : String
  read : Reader α
  default : Option α

/-- The value of a field among the fields of an object. -/
def Member.ofObject (field : Member α) (fields : List (String × Json)) : Except Fault α :=
  match Dict.get? fields field.name, field.default with
  | some document, _ => field.read document
  | none, some value => .ok value
  | none, none => .error (.missingField field.name)

/-- The value of a field among the items of an array, with the words for what was expected. -/
def Member.ofArray (field : Member α) (items : List Json) (position : Nat) (expected : String) :
    Except Fault α :=
  match items[position]?, field.default with
  | some document, _ => field.read document
  | none, some value => .ok value
  | none, none => .error (.invalidLength position expected)

/-- Whether a field can be read, for the fields of an object that have its name. -/
def Member.check (field : Member α) : String × (Json → Except Fault Unit) :=
  (field.name, fun document => (field.read document).map fun _ => ())

/-- Checks the fields of an object in their order. -/
def checkFields (checks : List (String × (Json → Except Fault Unit))) :
    List (String × Json) → Except Fault Unit
  | [] => .ok ()
  | (name, document) :: rest =>
      match checks.lookup name with
      | some check => do check document; checkFields checks rest
      | none => checkFields checks rest

/-- Requires that an array has no items past the fields of a record. -/
def checkLength (count : Nat) (items : List Json) : Except Fault Unit :=
  if count < items.length then .error (.invalidLength items.length "fewer elements in array")
  else .ok ()

end ScriptHost.Record
