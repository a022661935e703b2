set_option autoImplicit false

namespace ScriptHost

/-- A media type. The suffix is what follows the last plus sign of the subtype. -/
structure MediaType where
  type : String
  subtype : String
  suffix : Option String
deriving DecidableEq, Repr

namespace MediaType

/-- Whether a character may stand in a name. -/
def isNameChar (c : Char) : Bool :=
  c.isAlphanum || "!#$%&'*+-.^_\x60|~".toList.contains c

/-- Whether a character may stand between the quotes of a parameter. -/
def isQuotedChar (c : Char) : Bool := 32 ≤ c.toNat && c.toNat < 127

/-- What follows a quoted value behind its opening quote. The value has a character, and that one
may be a quote. -/
def quotedTail? : List Char → Option (List Char)
  | [] => none
  | first :: text =>
      match text.dropWhile fun c => isQuotedChar c && c != '"' with
      | '"' :: rest => if isQuotedChar first then some rest else none
      | _ => none

/-- Whether some characters are parameters with semicolons between them. The fuel is their
number. -/
def areParameters : Nat → List Char → Bool
  | _, [] => true
  | 0, _ => false
  | fuel + 1, ' ' :: text => areParameters fuel text
  | fuel + 1, text =>
      match text.takeWhile isNameChar, text.dropWhile isNameChar with
      | _ :: _, '=' :: '"' :: text =>
          match (quotedTail? text).map (·.dropWhile (· = ' ')) with
          | some [] => true
          | some (';' :: text) => areParameters fuel text
          | _ => false
      | _ :: _, '=' :: text =>
          match text.takeWhile isNameChar, text.dropWhile isNameChar with
          | _, [] => true
          | _ :: _, ';' :: text => areParameters fuel text
          | _, _ => false
      | _, _ => false

/-- Parts a subtype from its suffix. -/
def splitSuffix (name : List Char) : List Char × Option (List Char) :=
  match name.reverse.dropWhile (· ≠ '+') with
  | '+' :: c :: start => ((c :: start).reverse, some (name.reverse.takeWhile (· ≠ '+')).reverse)
  | _ => (name, none)

/-- A part of a media type, in lower case. -/
def nameText (name : List Char) : String := String.ofList (name.map Char.toLower)

/-- Reads a media type, if a text is one. -/
def ofText? (text : String) : Option MediaType :=
  match text.toList.takeWhile isNameChar, text.toList.dropWhile isNameChar with
  | first :: name, '/' :: text =>
      let (subtype, suffix) := splitSuffix (text.takeWhile isNameChar)
      let found : MediaType := ⟨nameText (first :: name), nameText subtype, suffix.map nameText⟩
      match text.takeWhile isNameChar, text.dropWhile isNameChar with
      | _, [] => some found
      | _ :: _, mark :: parameters =>
          let separated := mark = ';' || mark = ' '
          if separated && areParameters parameters.length parameters then some found else none
      | _, _ => none
  | _, _ => none

/-- Whether bodies of a type are JSON. -/
def isJson (m : MediaType) : Bool :=
  m.type = "application" && (m.subtype = "json" || m.suffix = some "json")

end MediaType

end ScriptHost
