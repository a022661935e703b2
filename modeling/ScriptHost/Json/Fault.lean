set_option autoImplicit false

namespace ScriptHost.Json

/-- Why a text is not a JSON document. -/
inductive Fault where
  | eofValue
  | eofList
  | eofObject
  | eofString
  | expectedValue
  | expectedIdent
  | expectedColon
  | expectedCommaOrBracket
  | expectedCommaOrBrace
  | keyNotString
  | trailingComma
  | trailingCharacters
  | invalidNumber
  | numberOutOfRange
  | invalidEscape
  | invalidCodePoint
  | loneSurrogate
  | endOfHexEscape
  | controlCharacter
  | recursionLimit
deriving DecidableEq, Repr

def Fault.message : Fault → String
  | eofValue => "EOF while parsing a value"
  | eofList => "EOF while parsing a list"
  | eofObject => "EOF while parsing an object"
  | eofString => "EOF while parsing a string"
  | expectedValue => "expected value"
  | expectedIdent => "expected ident"
  | expectedColon => "expected `:`"
  | expectedCommaOrBracket => "expected `,` or `]`"
  | expectedCommaOrBrace => "expected `,` or `\x7d`"
  | keyNotString => "key must be a string"
  | trailingComma => "trailing comma"
  | trailingCharacters => "trailing characters"
  | invalidNumber => "invalid number"
  | numberOutOfRange => "number out of range"
  | invalidEscape => "invalid escape"
  | invalidCodePoint => "invalid unicode code point"
  | loneSurrogate => "lone leading surrogate in hex escape"
  | endOfHexEscape => "unexpected end of hex escape"
  | controlCharacter => "control character (\\u0000-\\u001F) found while parsing a string"
  | recursionLimit => "recursion limit exceeded"

/-- One step from a container into a document: an item, a named field, or a field whose name is not
read yet. -/
inductive Place where
  | item (index : Nat)
  | field (name : String)
  | unnamed
deriving DecidableEq, Repr

/-- A path as text: names are joined by points, item numbers stand in brackets. -/
def Place.pathText (path : List Place) : String :=
  go true path
where
  go (first : Bool) : List Place → String
    | [] => ""
    | .item index :: rest => "[" ++ toString index ++ "]" ++ go false rest
    | .field name :: rest => (if first then "" else ".") ++ name ++ go false rest
    | .unnamed :: rest => (if first then "" else ".") ++ "?" ++ go false rest

/-- A fault, the input that was not consumed when it was found, and the way to it. -/
structure Failure where
  fault : Fault
  rest : List UInt8
  path : List Place
deriving DecidableEq, Repr

/-- The outcome of a reader: a result and the input behind it, or a failure. -/
abbrev Step (α : Type) := Except Failure (α × List UInt8)

/-- Changes the result of a reader. -/
def Step.map {α β : Type} (f : α → β) : Step α → Step β
  | .ok (result, rest) => .ok (f result, rest)
  | .error failure => .error failure

/-- Fails, with the given input left. -/
def fail {α : Type} (fault : Fault) (rest : List UInt8) : Except Failure α :=
  .error ⟨fault, rest, []⟩

/-- Fails at the next byte: that byte counts as consumed. -/
def failNext {α : Type} (fault : Fault) (rest : List UInt8) : Except Failure α :=
  fail fault (rest.drop 1)

/-- Notes that a failure lies below a place. -/
def under {α : Type} (place : Place) : Except Failure α → Except Failure α
  | .error failure => .error { failure with path := place :: failure.path }
  | .ok result => .ok result

/-- A line, from one, and the count of bytes consumed on it. -/
structure Position where
  line : Nat
  column : Nat
deriving DecidableEq, Repr

/-- The position behind some consumed bytes. -/
def Position.behind (consumed : List UInt8) : Position :=
  ⟨1 + consumed.count 10, (consumed.reverse.takeWhile (· != 10)).length⟩

/-- The position in an input of which a rest is left. -/
def Position.before (input rest : List UInt8) : Position :=
  .behind (input.take (input.length - rest.length))

/-- A message with a position. -/
def Position.locate (position : Position) (message : String) : String :=
  message ++ " at line " ++ toString position.line ++ " column " ++ toString position.column

/-- A text that is no JSON document: the fault and its position. -/
structure ParseError where
  fault : Fault
  position : Position
deriving DecidableEq, Repr

def ParseError.message (e : ParseError) : String := e.position.locate e.fault.message

def Failure.located (input : List UInt8) (failure : Failure) : ParseError :=
  ⟨failure.fault, .before input failure.rest⟩

end ScriptHost.Json
