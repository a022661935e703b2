import ScriptHost.FunctionError
import ScriptHost.Payload
import ScriptHost.Wire.Binary
import ScriptHost.Wire.Text

set_option autoImplicit false

namespace ScriptHost.Wire

/-- The binary form is MessagePack and the text form is JSON. -/
inductive Format where
  | binary
  | text
deriving DecidableEq, Repr

def Format.name : Format → String
  | binary => "msgpack"
  | text => "json"

/-- A failed reading or writing of a payload, as reported. -/
inductive Error where
  | emptyPayload
  | decode (format : Format) (path detail : String)
  | encode (format : Format) (path detail : String)
deriving DecidableEq, Repr

namespace Error

/-- The path as messages show it: nothing at the root. -/
def place (path : String) : String := if path = "" then "" else " at " ++ path

def message : Error → String
  | emptyPayload => "dynamic value carries neither msgpack nor json data"
  | decode format path detail => format.name ++ " decode" ++ place path ++ ": " ++ detail
  | encode format path detail => format.name ++ " encode" ++ place path ++ ": " ++ detail

def kind : Error → ErrorKind
  | encode _ _ _ => .encode
  | emptyPayload | decode _ _ _ => .decode

def toFunctionError (e : Error) : FunctionError := .ofText e.kind e.message

def ofDecode (format : Format) (failure : Located DecodeCause) : Error :=
  .decode format (pathText failure.path) failure.cause.message

def ofEncode (format : Format) (failure : Located EncodeCause) : Error :=
  .encode format (pathText failure.path) failure.cause.message

end Error

def decodeBinary (bytes : List UInt8) (ty : Ty) : Except Error Value :=
  (Binary.decode bytes ty).mapError (.ofDecode .binary)

def decodeText (bytes : List UInt8) (ty : Ty) : Except Error Value :=
  (Text.decode bytes ty).mapError (.ofDecode .text)

def encodeBinary (value : Value) (ty : Ty) : Except Error (List UInt8) :=
  (Binary.encode value ty).mapError (.ofEncode .binary)

def encodeText (value : Value) (ty : Ty) : Except Error (List UInt8) :=
  (Text.encode value ty).mapError (.ofEncode .text)

/-- The value of a type that a payload holds. -/
def decode (payload : Payload) (ty : Ty) : Except Error Value :=
  if !payload.binary.isEmpty then decodeBinary payload.binary ty
  else if !payload.text.isEmpty then decodeText payload.text ty
  else .error .emptyPayload

/-- Where there is a binary form nothing else counts. -/
theorem decode_binary {p : Payload} (there : p.binary ≠ []) (ty : Ty) :
    decode p ty = decodeBinary p.binary ty := by
  rw [decode, if_pos (by simpa using there)]

/-- Without a binary form the document of the text form counts. -/
theorem decode_text {p : Payload} {inner : Json} (absent : p.binary = [])
    (parsed : Json.parse p.text = .ok inner) (ty : Ty) :
    decode p ty = (Text.read inner ty).mapError (.ofDecode .text) := by
  have there : p.text ≠ [] := by
    intro none
    rw [none] at parsed
    cases parsed
  rw [decode, if_neg (by simp [absent]), if_pos (by simpa using there), decodeText, Text.decode,
    parsed]

theorem decode_empty {p : Payload} (noBinary : p.binary = []) (noText : p.text = []) (ty : Ty) :
    decode p ty = .error .emptyPayload := by
  rw [decode, if_neg (by simp [noBinary]), if_neg (by simp [noText])]

/-- The payload of a value under a type. -/
def encode (value : Value) (ty : Ty) : Except Error Payload :=
  (encodeBinary value ty).map .ofBinary

end ScriptHost.Wire
