import ScriptHost.Number.Decimal
import ScriptHost.Text.Blank

set_option autoImplicit false

namespace ScriptHost.Binary64

def digitsOf (text : List Char) : Nat :=
  text.foldl (fun n c => 10 * n + (c.toNat - 48)) 0

/-- The exponent that the text behind the digits of a number spells. -/
def exponentOf? : List Char → Option Int
  | [] => some 0
  | mark :: rest =>
      if mark = 'e' ∨ mark = 'E' then
        let (negative, digits) := match rest with
          | '+' :: rest => (false, rest)
          | '-' :: rest => (true, rest)
          | rest => (false, rest)
        if digits.isEmpty || !digits.all Char.isDigit then none
        else some (if negative then -(digitsOf digits : Int) else digitsOf digits)
      else none

/-- The numeral that a text without a sign spells. -/
def numeralOf? (text : List Char) : Option Decimal :=
  let front := text.takeWhile Char.isDigit
  let (places, rest) := match text.dropWhile Char.isDigit with
    | '.' :: rest => (rest.takeWhile Char.isDigit, rest.dropWhile Char.isDigit)
    | rest => ([], rest)
  if front.isEmpty && places.isEmpty then none
  else (exponentOf? rest).map fun exponent =>
    ⟨digitsOf (front ++ places), exponent - places.length⟩

/-- The number that a text spells. -/
def ofText? (text : List Char) : Option Binary64 :=
  let (negative, text) := match text with
    | '+' :: rest => (false, rest)
    | '-' :: rest => (true, rest)
    | text => (false, text)
  let word := String.ofList (text.map Char.toLower)
  if word = "inf" ∨ word = "infinity" then some (infinity negative)
  else if word = "nan" then some (nan negative)
  else (numeralOf? text).map (ofDecimal negative)

/-- The number that a text with white space around it spells, unless it is not a number. -/
def ofPaddedText? (text : String) : Option Binary64 :=
  match ofText? (trimBlanks text.toList) with
  | some x => if x.isNaN then none else some x
  | none => none

end ScriptHost.Binary64
