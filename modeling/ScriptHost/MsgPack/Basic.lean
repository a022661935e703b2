import ScriptHost.Number.Text
import ScriptHost.Text.Quoted
import ScriptHost.Text.Utf8

set_option autoImplicit false

namespace ScriptHost

/-- MessagePack documents. A string is held as its bytes, which need not be valid UTF-8. -/
inductive MsgPack where
  | nil
  | bool (value : Bool)
  | integer (value : Int)
  | single (bits : UInt32)
  | double (value : Binary64)
  | string (bytes : List UInt8)
  | binary (bytes : List UInt8)
  | array (items : List MsgPack)
  | map (pairs : List (MsgPack × MsgPack))
  | extension (type : Int) (bytes : List UInt8)
deriving Inhabited, Repr

namespace MsgPack

def ofText (text : String) : MsgPack := string (utf8 text)

/-- The name of a document's shape. -/
def kind : MsgPack → String
  | nil => "nil"
  | bool _ => "boolean"
  | integer _ | single _ | double _ => "number"
  | string _ => "string"
  | binary _ => "binary"
  | array _ => "array"
  | map _ => "map"
  | extension _ _ => "extension"

/-- The text of a string document, if its bytes are valid. -/
def asText? : MsgPack → Option String
  | string bytes => ofUtf8? bytes
  | _ => none

def bytesText (bytes : List UInt8) : String := bracketed (bytes.map toString)

mutual

/-- A document as messages show it. -/
def describe : MsgPack → String
  | nil => "nil"
  | bool value => if value then "true" else "false"
  | integer value => toString value
  | single bits => singlePlainText bits
  | double value => value.plainText
  | string bytes =>
      match ofUtf8? bytes with
      | some text => quote text
      | none => bytesText bytes
  | binary bytes => bytesText bytes
  | array items => bracketed (describeItems items)
  | map pairs => "\x7b" ++ String.intercalate ", " (describePairs pairs) ++ "\x7d"
  | extension type bytes => bracketed [toString type, bytesText bytes]

def describeItems : List MsgPack → List String
  | [] => []
  | item :: rest => describe item :: describeItems rest

def describePairs : List (MsgPack × MsgPack) → List String
  | [] => []
  | (key, value) :: rest => (describe key ++ ": " ++ describe value) :: describePairs rest

end

end MsgPack

end ScriptHost
