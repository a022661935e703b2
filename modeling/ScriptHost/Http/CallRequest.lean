import ScriptHost.Declaration.Record
import ScriptHost.Json.Skip
import ScriptHost.Payload

set_option autoImplicit false

/- The body of a call: a record with one field, the payloads of the arguments, which may be absent.
It is read straight from its bytes. A fault of the text has its own position; a fault of what the
text says is placed behind the array or object that it was found in, or behind a scalar. -/
namespace ScriptHost

/-- The payloads of the arguments of a call. -/
structure CallRequest where
  arguments : List Payload
deriving DecidableEq, Repr

namespace CallRequest

/-- Why bytes are not the body of a call. -/
inductive Fault where
  | document (fault : Json.Fault)
  | record (fault : Record.Fault)
  | payload (fault : Payload.Fault)
  | duplicateField (name : String)

def Fault.message : Fault → String
  | document fault => fault.message
  | record fault => fault.message
  | payload fault => fault.message
  | duplicateField name => "duplicate field `" ++ name ++ "`"

/-- Whether a fault is one of the text, not of what it says. -/
def Fault.isDocument : Fault → Bool
  | document _ => true
  | record _ | payload _ | duplicateField _ => false

/-- A fault, the input behind it, and the way to it. -/
structure Failure where
  fault : Fault
  rest : List UInt8
  path : List Json.Place

def ofDocument (failure : Json.Failure) : Failure :=
  ⟨.document failure.fault, failure.rest, failure.path⟩

/-- The outcome of reading a part: what it says and the input behind it, or a failure. -/
abbrev Step (α : Type) := Except Failure (α × List UInt8)

/-- The outcome of reading a part that is only a document. -/
def fromDocument {α : Type} (outcome : Except Json.Failure α) : Except Failure α :=
  outcome.mapError ofDocument

def under {α : Type} (place : Json.Place) : Except Failure α → Except Failure α
  | .error failure => .error { failure with path := place :: failure.path }
  | .ok result => .ok result

/-- Fails for a value that is not what was expected. A container is not entered. -/
def unexpected {α : Type} (expected : String) (s : List UInt8) : Except Failure α :=
  let invalid (found : Json) (rest : List UInt8) : Except Failure α :=
    .error ⟨.record (.invalidType found expected), rest, []⟩
  match Json.skipBlanks s with
  | 91 :: rest => invalid (.array []) (91 :: rest)
  | 123 :: rest => invalid (.object []) (123 :: rest)
  | s =>
      match Json.value 0 s with
      | .ok (found, rest) => invalid found rest
      | .error failure => .error (ofDocument failure)

/-- The input behind an array that was left early: its bracket is passed over, or else a comma. -/
def leaveArray (s : List UInt8) : List UInt8 :=
  match Json.skipBlanks s with
  | 93 :: rest => rest
  | 44 :: rest => Json.skipBlanks rest
  | s => s

/-- The input behind an object that was left early: its brace is passed over. -/
def leaveObject (s : List UInt8) : List UInt8 :=
  match Json.skipBlanks s with
  | 125 :: rest => rest
  | s => s

/-- How deep containers may nest in a payload: two contain it. -/
def payloadDepth : Nat := Json.depthLimit - 2

/-- Reads a payload that stands in an array. -/
def payload (s : List UInt8) : Step Payload :=
  match Json.value payloadDepth s with
  | .error failure => .error (ofDocument failure)
  | .ok (document, s) =>
      match Payload.ofJson document with
      | .error fault => .error ⟨.payload fault, leaveArray s, []⟩
      | .ok payload => .ok (payload, s)

/-- Reads a payload of an array, and then those that follow it up to the closing bracket. -/
def payloadItems : Nat → List Payload → List UInt8 → Step (List Payload)
  | 0, _, s => fromDocument (Json.fail .eofList s)
  | fuel + 1, read, s =>
      match under (.item read.length) (payload s) with
      | .error failure => .error failure
      | .ok (value, s) =>
          match Json.skipBlanks s with
          | [] => fromDocument (Json.fail .eofList [])
          | byte :: s =>
              if byte = 93 then .ok ((value :: read).reverse, s)
              else if byte = 44 then
                match Json.skipBlanks s with
                | [] => fromDocument (Json.fail .eofValue [])
                | next :: rest =>
                    if next = 93 then fromDocument (Json.fail .trailingComma rest)
                    else payloadItems fuel (value :: read) (next :: rest)
              else fromDocument (Json.fail .expectedCommaOrBracket s)

/-- Reads an array of payloads behind its opening bracket. -/
def payloadsTail (s : List UInt8) : Step (List Payload) :=
  match Json.skipBlanks s with
  | [] => fromDocument (Json.fail .eofList [])
  | byte :: rest =>
      if byte = 93 then .ok ([], rest) else payloadItems (byte :: rest).length [] (byte :: rest)

/-- Reads an array of payloads. -/
def payloads (s : List UInt8) : Step (List Payload) :=
  match Json.skipBlanks s with
  | 91 :: rest => payloadsTail rest
  | s => unexpected "a sequence" s

def fieldName : String := "arguments"

/-- Reads the value of a field behind its name. The arguments read so far are given. -/
def fieldValue (name : String) (read : Option (List Payload)) (s : List UInt8) :
    Step (Option (List Payload)) :=
  if name = fieldName then
    match read with
    | some _ => .error ⟨.duplicateField name, leaveObject s, []⟩
    | none =>
        match Json.colon s with
        | .error failure => .error (ofDocument failure)
        | .ok s =>
            match under (.field name) (payloads s) with
            | .error failure => .error failure
            | .ok (arguments, s) => .ok (some arguments, s)
  else
    match Json.colon s with
    | .error failure => .error (ofDocument failure)
    | .ok s => (under (.field name) (fromDocument (Json.skip s))).map fun s => (read, s)

/-- Reads a field behind the opening quote of its name, and then the fields that follow it up to
the closing brace. -/
def fields : Nat → Option (List Payload) → List UInt8 → Step (Option (List Payload))
  | 0, _, s => fromDocument (Json.fail .eofObject s)
  | fuel + 1, read, s =>
      match Json.stringBody s with
      | .error failure => .error (ofDocument failure)
      | .ok (name, s) =>
          match fieldValue name read s with
          | .error failure => .error failure
          | .ok (read, s) =>
              match Json.skipBlanks s with
              | [] => fromDocument (Json.fail .eofObject [])
              | byte :: s =>
                  if byte = 125 then .ok (read, s)
                  else if byte = 44 then
                    match Json.skipBlanks s with
                    | [] => fromDocument (Json.fail .eofValue [])
                    | next :: rest =>
                        if next = 34 then fields fuel read rest
                        else if next = 125 then fromDocument (Json.fail .trailingComma rest)
                        else fromDocument (Json.fail .keyNotString rest)
                  else fromDocument (Json.fail .expectedCommaOrBrace s)

/-- Reads a request that is an object, behind its opening brace. -/
def objectTail (s : List UInt8) : Step (Option (List Payload)) :=
  match Json.skipBlanks s with
  | [] => fromDocument (Json.fail .eofObject [])
  | byte :: rest =>
      if byte = 125 then .ok (none, rest)
      else if byte = 34 then fields (rest.length + 1) none rest
      else fromDocument (Json.fail .keyNotString rest)

/-- Reads a request that is an array, behind its opening bracket: the value of its field may be
there. -/
def arrayTail (s : List UInt8) : Step (Option (List Payload)) :=
  match Json.skipBlanks s with
  | [] => fromDocument (Json.fail .eofList [])
  | 93 :: rest => .ok (none, rest)
  | s =>
      match under (.item 0) (payloads s) with
      | .error failure => .error failure
      | .ok (arguments, s) =>
          match Json.skipBlanks s with
          | [] => fromDocument (Json.fail .eofList [])
          | 93 :: rest => .ok (some arguments, rest)
          | 44 :: rest =>
              match Json.skipBlanks rest with
              | 93 :: rest => fromDocument (Json.fail .trailingComma rest)
              | rest => fromDocument (Json.failNext .trailingCharacters rest)
          | _ :: rest => fromDocument (Json.fail .trailingCharacters rest)

/-- Reads the arguments of a request, if it has them. -/
def body (s : List UInt8) : Step (Option (List Payload)) :=
  match Json.skipBlanks s with
  | 91 :: rest => arrayTail rest
  | 123 :: rest => objectTail rest
  | s => unexpected "struct CallRequest" s

/-- Reads a request from bytes that hold nothing else. -/
def parse (input : List UInt8) : Except Failure CallRequest :=
  match body input with
  | .error failure => .error failure
  | .ok (arguments, rest) => fromDocument (Json.finish (.ok (⟨arguments.getD []⟩, rest)))

/-- The words for a failure in some input: the way to it, unless no step of it has a name, then the
fault and its position. -/
def Failure.message (input : List UInt8) (failure : Failure) : String :=
  let place :=
    if failure.path.all (· = .unnamed) then "" else Json.Place.pathText failure.path ++ ": "
  place ++ (Json.Position.before input failure.rest).locate failure.fault.message

end CallRequest

end ScriptHost
