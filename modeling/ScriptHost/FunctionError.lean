import ScriptHost.Json.Basic

set_option autoImplicit false

namespace ScriptHost

inductive ErrorKind where
  | decode
  | encode
  | argument
  | unsupportedType
  | badTableIndex
  | unhandledReturnType
  | missingReturnValue
  | notAFunction
  | engine
deriving DecidableEq, Repr

namespace ErrorKind

def name : ErrorKind → String
  | decode => "decode"
  | encode => "encode"
  | argument => "argument"
  | unsupportedType => "unsupported_type"
  | badTableIndex => "bad_table_index"
  | unhandledReturnType => "unhandled_return_type"
  | missingReturnValue => "missing_return_value"
  | notAFunction => "not_a_function"
  | engine => "engine"

def all : List ErrorKind :=
  [decode, encode, argument, unsupportedType, badTableIndex, unhandledReturnType,
    missingReturnValue, notAFunction, engine]

def ofName? (name : String) : Option ErrorKind := all.find? (·.name == name)

theorem ofName?_name (kind : ErrorKind) : ofName? kind.name = some kind := by
  cases kind <;> decide

end ErrorKind

/-- A failed call as its caller sees it: a kind, a text, and the argument concerned, if there is
one. -/
structure FunctionError where
  kind : ErrorKind
  text : String
  argument : Option Nat
deriving DecidableEq, Repr

namespace FunctionError

def ofText (kind : ErrorKind) (text : String) : FunctionError := ⟨kind, text, none⟩

/-- An argument that does not fit, at a position. -/
def ofArgument (position : Nat) (text : String) : FunctionError :=
  ⟨.argument, text, some position⟩

def atArgument (e : FunctionError) (position : Nat) : FunctionError :=
  { e with argument := some position }

/-- Puts a context before the text. -/
def withContext (e : FunctionError) (context : String) : FunctionError :=
  { e with text := context ++ ": " ++ e.text }

/-- The text with the kind and the argument before it. -/
def debugText (e : FunctionError) : String :=
  match e.argument with
  | some position => "[" ++ e.kind.name ++ "] argument " ++ toString position ++ ": " ++ e.text
  | none => "[" ++ e.kind.name ++ "] " ++ e.text

def toJson (e : FunctionError) : Json :=
  .object [("kind", .string e.kind.name), ("text", .string e.text),
    ("argument", match e.argument with
      | some position => .integer position
      | none => .null)]

end FunctionError

end ScriptHost
