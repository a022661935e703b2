import ScriptHost.Json.Basic
import ScriptHost.Number.Text
import ScriptHost.Text.Digit
import ScriptHost.Text.Utf8

set_option autoImplicit false

namespace ScriptHost.Json

def hexDigit (n : Nat) : UInt8 := UInt8.ofNat (if n < 10 then 48 + n else 87 + n)

/-- The written form of one byte of a string. -/
def escape (byte : UInt8) : List UInt8 :=
  if byte = 34 then [92, 34]
  else if byte = 92 then [92, 92]
  else if byte = 8 then [92, 98]
  else if byte = 9 then [92, 116]
  else if byte = 10 then [92, 110]
  else if byte = 12 then [92, 102]
  else if byte = 13 then [92, 114]
  else if byte < 32 then [92, 117, 48, 48, hexDigit (byte.toNat / 16), hexDigit (byte.toNat % 16)]
  else [byte]

/-- A string between quotes. -/
def quoted (text : String) : List UInt8 := 34 :: (utf8 text).flatMap escape ++ [34]

/-- The written form of a number that is finite. -/
def numeral (x : Binary64) : List UInt8 := ascii (x.shortestText .json)

def integerText (n : Int) : List UInt8 := ascii (decimalText n)

/-- The written form of a document without containers. -/
def scalarText : Json → List UInt8
  | null => ascii "null".toList
  | bool true => ascii "true".toList
  | bool false => ascii "false".toList
  | integer value => integerText value
  | float value => if value.isFinite then numeral value else ascii "null".toList
  | string value => quoted value
  | array _ | object _ => []

mutual

/-- The compact form: nothing between tokens. -/
def render : Json → List UInt8
  | array [] => [91, 93]
  | array (item :: rest) => 91 :: (render item ++ renderItems rest)
  | object [] => [123, 125]
  | object ((name, value) :: rest) =>
      123 :: (quoted name ++ 58 :: (render value ++ renderFields rest))
  | document => scalarText document

/-- The items after the first one, and the closing bracket. -/
def renderItems : List Json → List UInt8
  | [] => [93]
  | item :: rest => 44 :: (render item ++ renderItems rest)

/-- The fields after the first one, and the closing brace. -/
def renderFields : List (String × Json) → List UInt8
  | [] => [125]
  | (name, value) :: rest => 44 :: (quoted name ++ 58 :: (render value ++ renderFields rest))

end

/-- A new line with two blanks for each level. -/
def newLine (level : Nat) : List UInt8 := 10 :: List.replicate (2 * level) 32

mutual

/-- The form with one item a line; empty containers stay on theirs. -/
def renderLines (level : Nat) : Json → List UInt8
  | array [] => [91, 93]
  | array (item :: rest) =>
      91 :: (newLine (level + 1) ++ renderLines (level + 1) item ++ renderItemLines level rest)
  | object [] => [123, 125]
  | object ((name, value) :: rest) =>
      123 :: (newLine (level + 1) ++ quoted name ++ [58, 32] ++
        renderLines (level + 1) value ++ renderFieldLines level rest)
  | document => scalarText document

def renderItemLines (level : Nat) : List Json → List UInt8
  | [] => newLine level ++ [93]
  | item :: rest =>
      44 :: (newLine (level + 1) ++ renderLines (level + 1) item ++ renderItemLines level rest)

def renderFieldLines (level : Nat) : List (String × Json) → List UInt8
  | [] => newLine level ++ [125]
  | (name, value) :: rest =>
      44 :: (newLine (level + 1) ++ quoted name ++ [58, 32] ++
        renderLines (level + 1) value ++ renderFieldLines level rest)

end

/-- The compact form as text. -/
def text (document : Json) : String := (ofUtf8? document.render).getD ""

/-- The form with one item a line as text. -/
def linesText (document : Json) : String := (ofUtf8? (document.renderLines 0)).getD ""

end ScriptHost.Json
