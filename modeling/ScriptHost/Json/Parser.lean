import ScriptHost.Json.Basic
import ScriptHost.Json.Fault
import ScriptHost.Number.Decimal
import ScriptHost.Text.Digit
import ScriptHost.Text.Utf8

set_option autoImplicit false

namespace ScriptHost.Json

/-- Blank, tab, line feed and carriage return separate tokens. -/
def isBlank (byte : UInt8) : Bool := byte == 32 || byte == 9 || byte == 10 || byte == 13

def skipBlanks (s : List UInt8) : List UInt8 := s.dropWhile isBlank

/-- Reads the rest of a word such as `true`, which stands for a document. -/
def word (document : Json) : List UInt8 → List UInt8 → Step Json
  | [], s => .ok (document, s)
  | _ :: _, [] => fail .eofValue []
  | expected :: more, byte :: s =>
      if byte = expected then word document more s else fail .expectedIdent s

/-- The greatest exponent that is written out in full. -/
def exponentLimit : Nat := 2147483647

/-- Reads the digits of an exponent; `none` when it passes the limit. -/
def exponentDigits (value : Nat) : List UInt8 → Option Nat × List UInt8
  | [] => (some value, [])
  | byte :: s =>
      if isDigit byte then
        let next := 10 * value + digitValue byte
        if exponentLimit < next then (none, s) else exponentDigits next s
      else (some value, byte :: s)

/-- The number a numeral with a fraction or an exponent stands for, rounded correctly. It is assumed
of the reader of JSON that it rounds so: without its exact mode it computes long numerals in floats,
and may be one unit off in the last place. -/
def floating (negative : Bool) (d : Decimal) (rest : List UInt8) : Step Json :=
  let x := Binary64.ofDecimal negative d
  if x.isInfinite then fail .numberOutOfRange rest else .ok (.float x, rest)

/-- Reads an exponent behind its letter. -/
def exponentPart (negative : Bool) (coefficient places : Nat) (s : List UInt8) : Step Json :=
  let (downward, s) := match s with
    | 43 :: s => (false, s)
    | 45 :: s => (true, s)
    | s => (false, s)
  match s with
  | [] => fail .eofValue []
  | byte :: s =>
      if isDigit byte then
        match exponentDigits (digitValue byte) s with
        | (some size, rest) =>
            let exponent : Int := if downward then -(size : Int) else size
            floating negative ⟨coefficient, exponent - places⟩ rest
        | (none, rest) =>
            if coefficient ≠ 0 ∧ downward = false then fail .numberOutOfRange rest
            else .ok (.float (.ofUnsigned negative 0), rest.dropWhile isDigit)
      else fail .invalidNumber s

/-- Whether a byte announces an exponent. -/
def isExponentMark (byte : UInt8) : Bool := byte == 101 || byte == 69

/-- The document of a whole numeral: an integer if it fits in a signed or unsigned word. -/
def whole (negative : Bool) (n : Nat) : Json :=
  if negative then
    if 0 < n ∧ n ≤ 0x8000000000000000 then .integer (-(n : Int))
    else .float (.ofDecimal true ⟨n, 0⟩)
  else if n < 0x10000000000000000 then .integer n else .float (.ofDecimal false ⟨n, 0⟩)

/-- Reads what may follow the whole digits of a number. -/
def numberTail (negative : Bool) (n : Nat) (s : List UInt8) : Step Json :=
  match s with
  | [] => floatOrWhole []
  | byte :: rest =>
      if byte = 46 then
        let digits := rest.takeWhile isDigit
        let after := rest.dropWhile isDigit
        if digits.isEmpty then
          match after with
          | [] => fail .eofValue []
          | _ :: rest => fail .invalidNumber rest
        else
          let coefficient := digitsValue n digits
          match after with
          | [] => floating negative ⟨coefficient, -(digits.length : Int)⟩ []
          | mark :: rest =>
              if isExponentMark mark then exponentPart negative coefficient digits.length rest
              else floating negative ⟨coefficient, -(digits.length : Int)⟩ (mark :: rest)
      else if isExponentMark byte then exponentPart negative n 0 rest
      else floatOrWhole (byte :: rest)
where
  floatOrWhole (rest : List UInt8) : Step Json :=
    match whole negative n with
    | .float x => if x.isInfinite then fail .numberOutOfRange rest else .ok (.float x, rest)
    | document => .ok (document, rest)

/-- Reads a number behind its sign. -/
def number (negative : Bool) : List UInt8 → Step Json
  | [] => fail .eofValue []
  | byte :: s =>
      if byte = 48 then
        match s with
        | [] => numberTail negative 0 []
        | next :: rest =>
            if isDigit next then fail .invalidNumber rest else numberTail negative 0 (next :: rest)
      else if isDigit byte then
        numberTail negative (digitsValue (digitValue byte) (s.takeWhile isDigit))
          (s.dropWhile isDigit)
      else fail .invalidNumber s

/-- Reads four hexadecimal digits. -/
def hexQuad : List UInt8 → Step Nat
  | a :: b :: c :: d :: s =>
      match hexValue? a, hexValue? b, hexValue? c, hexValue? d with
      | some a, some b, some c, some d => .ok (((a * 16 + b) * 16 + c) * 16 + d, s)
      | _, _, _, _ => fail .invalidEscape s
  | _ => fail .eofString []

/-- Reads the second half of a code point written as two escapes. -/
def lowSurrogate (high : Nat) : List UInt8 → Step (List UInt8)
  | [] => fail .eofString []
  | mark :: s =>
      if mark = 92 then
        match s with
        | [] => fail .eofString []
        | letter :: s =>
            if letter = 117 then
              match hexQuad s with
              | .error failure => .error failure
              | .ok (low, s) =>
                  if 0xDC00 ≤ low ∧ low ≤ 0xDFFF then
                    .ok (utf8OfCode ((high - 0xD800) * 1024 + (low - 0xDC00) + 0x10000), s)
                  else fail .loneSurrogate s
            else fail .endOfHexEscape s
      else fail .endOfHexEscape s

/-- Reads an escape behind its backslash, and gives the bytes it stands for. -/
def escaped : List UInt8 → Step (List UInt8)
  | [] => fail .eofString []
  | letter :: s =>
      if letter = 34 then .ok ([34], s)
      else if letter = 92 then .ok ([92], s)
      else if letter = 47 then .ok ([47], s)
      else if letter = 98 then .ok ([8], s)
      else if letter = 102 then .ok ([12], s)
      else if letter = 110 then .ok ([10], s)
      else if letter = 114 then .ok ([13], s)
      else if letter = 116 then .ok ([9], s)
      else if letter = 117 then
        match hexQuad s with
        | .error failure => .error failure
        | .ok (code, s) =>
            if 0xDC00 ≤ code ∧ code ≤ 0xDFFF then fail .loneSurrogate s
            else if 0xD800 ≤ code ∧ code ≤ 0xDBFF then lowSurrogate code s
            else .ok (utf8OfCode code, s)
      else fail .invalidEscape s

/-- Reads a string to its closing quote; the bytes read so far are given in reverse. The fuel is
the length of the input. -/
def stringBytes : Nat → List UInt8 → List UInt8 → Step (List UInt8)
  | _, _, [] => fail .eofString []
  | 0, _, s => fail .eofString s
  | fuel + 1, read, byte :: s =>
      if byte = 34 then .ok (read.reverse, s)
      else if byte = 92 then
        match escaped s with
        | .ok (bytes, s) => stringBytes fuel (bytes.reverse ++ read) s
        | .error failure => .error failure
      else if byte < 32 then fail .controlCharacter s
      else stringBytes fuel (byte :: read) s

/-- Reads a string behind its opening quote. A byte that begins no character is where it fails. -/
def stringBody (s : List UInt8) : Step String :=
  match stringBytes s.length [] s with
  | .error failure => .error failure
  | .ok (bytes, rest) =>
      match ofUtf8? bytes with
      | some text => .ok (text, rest)
      | none => failNext .invalidCodePoint (invalidTail s.length s)

/-- Reads an item of an array, and then the items that follow it up to the closing bracket. -/
def items {α : Type} (item : List UInt8 → Step α) :
    Nat → List α → List UInt8 → Step (List α)
  | 0, _, s => fail .eofList s
  | fuel + 1, read, s =>
      match under (.item read.length) (item s) with
      | .error failure => .error failure
      | .ok (value, s) =>
          match skipBlanks s with
          | [] => fail .eofList []
          | byte :: s =>
              if byte = 93 then .ok ((value :: read).reverse, s)
              else if byte = 44 then
                match skipBlanks s with
                | [] => fail .eofValue []
                | next :: rest =>
                    if next = 93 then fail .trailingComma rest
                    else items item fuel (value :: read) (next :: rest)
              else fail .expectedCommaOrBracket s

/-- Reads an array behind its opening bracket. -/
def arrayTail {α : Type} (item : List UInt8 → Step α) (s : List UInt8) : Step (List α) :=
  match skipBlanks s with
  | [] => fail .eofList []
  | byte :: rest =>
      if byte = 93 then .ok ([], rest) else items item (byte :: rest).length [] (byte :: rest)

/-- Reads the colon behind the name of a field. -/
def colon (s : List UInt8) : Except Failure (List UInt8) :=
  match skipBlanks s with
  | [] => fail .eofObject []
  | byte :: s => if byte = 58 then .ok s else fail .expectedColon s

/-- Reads what stands behind the name of a field: a colon and a value. -/
def fieldValue {α : Type} (value : List UInt8 → Step α) (name : String) (s : List UInt8) : Step α :=
  match colon s with
  | .error failure => .error failure
  | .ok s => under (.field name) (value s)

/-- Reads a field behind the opening quote of its name, and then the fields that follow it up to
the closing brace. -/
def fields {α : Type} (value : List UInt8 → Step α) :
    Nat → List (String × α) → List UInt8 → Step (List (String × α))
  | 0, _, s => fail .eofObject s
  | fuel + 1, read, s =>
      match under .unnamed (stringBody s) with
      | .error failure => .error failure
      | .ok (name, s) =>
          match fieldValue value name s with
          | .error failure => .error failure
          | .ok (document, s) =>
              let read := Dict.insert name document read
              match skipBlanks s with
              | [] => under .unnamed (fail .eofObject [])
              | byte :: s =>
                  if byte = 125 then .ok (read, s)
                  else if byte = 44 then
                    match skipBlanks s with
                    | [] => under .unnamed (fail .eofValue [])
                    | next :: rest =>
                        if next = 34 then fields value fuel read rest
                        else if next = 125 then under .unnamed (fail .trailingComma rest)
                        else under .unnamed (fail .keyNotString rest)
                  else under .unnamed (fail .expectedCommaOrBrace s)

/-- Reads an object behind its opening brace. -/
def objectTail {α : Type} (value : List UInt8 → Step α) (s : List UInt8) :
    Step (List (String × α)) :=
  match skipBlanks s with
  | [] => under .unnamed (fail .eofObject [])
  | byte :: rest =>
      if byte = 125 then .ok ([], rest)
      else if byte = 34 then fields value (rest.length + 1) [] rest
      else under .unnamed (fail .keyNotString rest)

/-- Reads a document whose containers hold what `nested` reads; without it there may be none. -/
def valueWith (nested : Option (List UInt8 → Step Json)) (s : List UInt8) : Step Json :=
  match skipBlanks s with
  | [] => fail .eofValue []
  | byte :: rest =>
      if byte = 34 then (stringBody rest).map .string
      else if byte = 91 then
        match nested with
        | none => fail .recursionLimit rest
        | some item => (arrayTail item rest).map .array
      else if byte = 123 then
        match nested with
        | none => fail .recursionLimit rest
        | some value => (objectTail value rest).map .object
      else if byte = 45 then number true rest
      else if isDigit byte then number false (byte :: rest)
      else if byte = 110 then word .null [117, 108, 108] rest
      else if byte = 116 then word (.bool true) [114, 117, 101] rest
      else if byte = 102 then word (.bool false) [97, 108, 115, 101] rest
      else fail .expectedValue rest

/-- Reads a document in which containers nest to the given depth at most. -/
def value : Nat → List UInt8 → Step Json
  | 0 => valueWith none
  | levels + 1 => valueWith (some (value levels))

/-- How deep containers may nest in a document. -/
def depthLimit : Nat := 127

/-- Requires that only blanks are left behind a result. -/
def finish {α : Type} : Step α → Except Failure α
  | .error failure => .error failure
  | .ok (result, s) =>
      match skipBlanks s with
      | [] => .ok result
      | _ :: rest => fail .trailingCharacters rest

/-- Reads bytes that hold one document. -/
def parse (input : List UInt8) : Except ParseError Json :=
  (finish (value depthLimit input)).mapError (·.located input)

end ScriptHost.Json
