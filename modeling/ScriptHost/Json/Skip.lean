import ScriptHost.Json.Parser

set_option autoImplicit false

namespace ScriptHost.Json

/-- A container that has been opened. -/
inductive Container where
  | array
  | object
deriving DecidableEq, Repr

namespace Container

def closing : Container → UInt8
  | array => 93
  | object => 125

def unclosed : Container → Fault
  | array => .eofList
  | object => .eofObject

def unseparated : Container → Fault
  | array => .expectedCommaOrBracket
  | object => .expectedCommaOrBrace

end Container

/-- Passes over an escape behind its backslash. -/
def skipEscape : List UInt8 → Except Failure (List UInt8)
  | [] => fail .eofString []
  | letter :: s =>
      if letter = 117 then Except.map Prod.snd (hexQuad s)
      else if [34, 92, 47, 98, 102, 110, 114, 116].contains letter then .ok s
      else fail .invalidEscape s

/-- Passes over a string behind its opening quote. The fuel is the length of the input. -/
def skipString : Nat → List UInt8 → Except Failure (List UInt8)
  | _, [] => fail .eofString []
  | 0, s => fail .eofString s
  | fuel + 1, byte :: s =>
      if byte = 34 then .ok s
      else if byte = 92 then
        match skipEscape s with
        | .ok s => skipString fuel s
        | .error failure => .error failure
      else if byte < 32 then fail .controlCharacter (byte :: s)
      else skipString fuel s

/-- Passes over an exponent behind its letter. -/
def skipExponent (s : List UInt8) : Except Failure (List UInt8) :=
  let s := match s with
    | 43 :: s => s
    | 45 :: s => s
    | s => s
  match s with
  | [] => fail .invalidNumber []
  | byte :: s => if isDigit byte then .ok (s.dropWhile isDigit) else fail .invalidNumber s

/-- Passes over what may follow the whole digits of a number. -/
def skipNumberTail : List UInt8 → Except Failure (List UInt8)
  | [] => .ok []
  | byte :: s =>
      if byte = 46 then
        if (s.takeWhile isDigit).isEmpty then failNext .invalidNumber s
        else
          match s.dropWhile isDigit with
          | [] => .ok []
          | mark :: rest => if isExponentMark mark then skipExponent rest else .ok (mark :: rest)
      else if isExponentMark byte then skipExponent s
      else .ok (byte :: s)

/-- Passes over a number behind its sign. -/
def skipNumber : List UInt8 → Except Failure (List UInt8)
  | [] => fail .invalidNumber []
  | byte :: s =>
      if byte = 48 then
        if (s.takeWhile isDigit).isEmpty then skipNumberTail s else failNext .invalidNumber s
      else if isDigit byte then skipNumberTail (s.dropWhile isDigit)
      else fail .invalidNumber s

/-- Passes over a value without containers, of which the first byte is given apart. -/
def skipScalar (first : UInt8) (s : List UInt8) : Except Failure (List UInt8) :=
  if first = 34 then skipString s.length s
  else if first = 45 then skipNumber s
  else if isDigit first then skipNumber (first :: s)
  else if first = 110 then Except.map Prod.snd (word .null [117, 108, 108] s)
  else if first = 116 then Except.map Prod.snd (word .null [114, 117, 101] s)
  else if first = 102 then Except.map Prod.snd (word .null [97, 108, 115, 101] s)
  else fail .expectedValue s

/-- Passes over the name of a field, and its colon. -/
def skipName (s : List UInt8) : Except Failure (List UInt8) :=
  match skipBlanks s with
  | [] => fail .eofObject []
  | byte :: s =>
      if byte = 34 then
        match skipString s.length s with
        | .ok s => colon s
        | .error failure => .error failure
      else fail .keyNotString s

/-- What comes next in a value. -/
inductive Expected where
  /-- A value. -/
  | value
  /-- The first item of a container, or its end. -/
  | item
  /-- A comma and another item, or the end of the container. -/
  | comma
deriving DecidableEq, Repr

/-- Begins an item of a container: a value, with a name if the container has names. -/
def beginItem (container : Container) (s : List UInt8) : Except Failure (List UInt8) :=
  match container with
  | .array => .ok s
  | .object => skipName s

/-- Passes over a value and over the rest of the containers that it stands in, innermost first. -/
def skipWithin : Nat → Expected → List Container → List UInt8 → Except Failure (List UInt8)
  | 0, _, _, s => fail .eofValue s
  | fuel + 1, .value, within, s =>
      match skipBlanks s with
      | [] => fail .eofValue []
      | byte :: rest =>
          if byte = 91 then skipWithin fuel .item (.array :: within) rest
          else if byte = 123 then skipWithin fuel .item (.object :: within) rest
          else
            match skipScalar byte rest with
            | .ok rest => skipWithin fuel .comma within rest
            | .error failure => .error failure
  | _ + 1, _, [], s => .ok s
  | fuel + 1, expected, container :: within, s =>
      match skipBlanks s with
      | [] => fail container.unclosed []
      | byte :: rest =>
          if byte = container.closing then skipWithin fuel .comma within rest
          else
            let begun :=
              if expected = .item then beginItem container (byte :: rest)
              else if byte = 44 then beginItem container rest
              else fail container.unseparated rest
            match begun with
            | .ok rest => skipWithin fuel .value (container :: within) rest
            | .error failure => .error failure

/-- Passes over a value. Each byte takes two steps at most. -/
def skip (s : List UInt8) : Except Failure (List UInt8) :=
  skipWithin (2 * s.length + 2) .value [] s

end ScriptHost.Json
