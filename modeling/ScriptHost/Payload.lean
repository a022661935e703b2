import ScriptHost.Base64
import ScriptHost.Json.Parser
import ScriptHost.Json.Printer

set_option autoImplicit false

namespace ScriptHost

/-- What travels for one dynamic value: a binary form and a text form, of which the binary one
counts if it is there. -/
structure Payload where
  binary : List UInt8
  text : List UInt8
deriving DecidableEq, Inhabited, Repr

namespace Payload

def empty : Payload := ⟨[], []⟩

def ofBinary (bytes : List UInt8) : Payload := ⟨bytes, []⟩

def ofText (bytes : List UInt8) : Payload := ⟨[], bytes⟩

def isEmpty (p : Payload) : Bool := p.binary.isEmpty && p.text.isEmpty

/-- Why a document is not a payload. -/
inductive Fault where
  | document (error : Json.ParseError)
  | notAnObject
  | notBase64
  | base64 (fault : Base64.Fault)
deriving DecidableEq, Repr

def Fault.message : Fault → String
  | document error => error.message
  | notAnObject => "expected an object with a msgpack or json field"
  | notBase64 => "expected base64 string for msgpack"
  | base64 fault => fault.message

/-- The bytes in the field of the binary form. -/
def binaryOfField : Option Json → Except Fault (List UInt8)
  | none | some .null => .ok []
  | some (.string symbols) =>
      match Base64.decode (utf8 symbols) with
      | .ok bytes => .ok bytes
      | .error fault => .error (.base64 fault)
  | some _ => .error .notBase64

/-- The bytes of the text form that stands inline in its field. -/
def textOfField : Option Json → List UInt8
  | none | some .null => []
  | some inner => inner.render

/-- Reads a payload; absent fields and null fields are empty. -/
def ofJson : Json → Except Fault Payload
  | .object fields =>
      match binaryOfField (Dict.get? fields "msgpack") with
      | .error fault => .error fault
      | .ok binary => .ok ⟨binary, textOfField (Dict.get? fields "json")⟩
  | _ => .error .notAnObject

/-- Reads a payload from bytes that hold one document. What the document says is judged before what
follows it. -/
def parse (input : List UInt8) : Except Fault Payload :=
  match Json.value Json.depthLimit input with
  | .error failure => .error (.document (failure.located input))
  | .ok (document, rest) =>
      match ofJson document with
      | .error fault => .error fault
      | .ok payload => (Json.finish (.ok (payload, rest))).mapError (.document <| ·.located input)

/-- Writes a payload: the binary form if there is one, else the text form, which must be JSON. -/
def toJson (p : Payload) : Except Json.ParseError Json :=
  if !p.binary.isEmpty then
    .ok (.object [("msgpack", .string ((ofUtf8? (Base64.encode p.binary)).getD ""))])
  else if !p.text.isEmpty then
    (Json.parse p.text).map fun inner => .object [("json", inner)]
  else .ok (.object [])

end Payload

end ScriptHost
