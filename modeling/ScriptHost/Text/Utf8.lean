set_option autoImplicit false

namespace ScriptHost

/-- The UTF-8 bytes of a text. -/
def utf8 (text : String) : List UInt8 := text.toUTF8.data.toList

/-- The text that some bytes are the UTF-8 form of, if they are valid. -/
def ofUtf8? (bytes : List UInt8) : Option String := String.fromUTF8? ⟨bytes.toArray⟩

/-- The UTF-8 bytes of one code point. -/
def utf8OfCode (code : Nat) : List UInt8 := utf8 (String.singleton (Char.ofNat code))

/-- How many bytes the character takes that some bytes begin with, if they begin with one. -/
def characterSize? (bytes : List UInt8) : Option Nat :=
  [1, 2, 3, 4].find? fun size => size ≤ bytes.length && (ofUtf8? (bytes.take size)).isSome

/-- What is left of some bytes from the first one on that begins no character. The fuel is their
number. -/
def invalidTail : Nat → List UInt8 → List UInt8
  | 0, bytes => bytes
  | fuel + 1, bytes =>
      match characterSize? bytes with
      | some size => invalidTail fuel (bytes.drop size)
      | none => bytes

/-- Whether a byte can stand second in a character that begins with another. -/
def isSecond (first second : UInt8) : Bool :=
  let low : UInt8 := if first = 0xE0 then 0xA0 else if first = 0xF0 then 0x90 else 0x80
  let high : UInt8 := if first = 0xED then 0x9F else if first = 0xF4 then 0x8F else 0xBF
  low ≤ second && second ≤ high

/-- How many bytes begin a character that does not end: at least one. -/
def brokenSize : List UInt8 → Nat
  | first :: second :: rest =>
      if 0xE0 ≤ first && first ≤ 0xF4 && isSecond first second then
        match rest with
        | third :: _ => if 0xF0 ≤ first && 0x80 ≤ third && third ≤ 0xBF then 3 else 2
        | [] => 2
      else 1
  | _ => 1

/-- The characters of some bytes; each part that belongs to none shows as a replacement character.
The fuel is their number. -/
def lossyChars : Nat → List UInt8 → List Char
  | 0, _ => []
  | _, [] => []
  | fuel + 1, bytes =>
      match characterSize? bytes with
      | some size =>
          ((ofUtf8? (bytes.take size)).getD "").toList ++ lossyChars fuel (bytes.drop size)
      | none => Char.ofNat 0xFFFD :: lossyChars fuel (bytes.drop (brokenSize bytes))

/-- The text of some bytes that may not be valid. -/
def lossyText (bytes : List UInt8) : String :=
  match ofUtf8? bytes with
  | some text => text
  | none => String.ofList (lossyChars bytes.length bytes)

end ScriptHost
