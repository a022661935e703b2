import ScriptHost.Number.Reading
import ScriptHost.Number.Text
import ScriptHost.Script.Datum
import ScriptHost.Text.Digit

set_option autoImplicit false

namespace ScriptHost.Script

/-- Blank, tab, line feed, vertical tab, form feed and carriage return. -/
def isSpace (byte : UInt8) : Bool := byte == 32 || (9 ≤ byte && byte ≤ 13)

/-- A text without the blanks at its ends. -/
def trimSpaces (text : Bytes) : Bytes :=
  ((text.dropWhile isSpace).reverse.dropWhile isSpace).reverse

/-- Whether a text is negative, and what follows its sign. -/
def splitSign : Bytes → Bool × Bytes
  | 45 :: rest => (true, rest)
  | 43 :: rest => (false, rest)
  | text => (false, text)

/-- What follows the mark of a hexadecimal numeral. -/
def afterHexMark? : Bytes → Option Bytes
  | 48 :: mark :: rest => if mark = 120 ∨ mark = 88 then some rest else none
  | _ => none

/-- The integer that a text without blanks spells. -/
def integerOf? (text : Bytes) : Option Int :=
  let (negative, digits) := splitSign text
  match afterHexMark? digits with
  | some digits =>
      if digits.isEmpty || !digits.all isHexDigit then none
      else
        let n : Int := hexDigitsValue digits
        some (wrap (if negative then -n else n))
  | none =>
      if digits.isEmpty || !digits.all isDigit then none
      else
        let n : Int := digitsValue 0 digits
        let signed := if negative then -n else n
        if Binary64.isWord signed then some signed else none

/-- The exponent of two that stands behind the digits of a hexadecimal numeral. -/
def binaryExponent? : Bytes → Option Int
  | [] => some 0
  | mark :: rest =>
      if mark = 112 ∨ mark = 80 then
        let (negative, digits) := splitSign rest
        if digits.isEmpty || !digits.all isDigit then none
        else
          let n : Int := digitsValue 0 digits
          some (if negative then -n else n)
      else none

/-- A natural times a power of two, as the nearest float. -/
def scaled (negative : Bool) (n : Nat) (exponent : Int) : Binary64 :=
  let f := FloatFormat.double
  if n = 0 then .ofUnsigned negative 0
  else if f.unitExponent < exponent then .infinity negative
  else if exponent + n.log2 + 2 < -(f.unitExponent : Int) then .ofUnsigned negative 0
  else if 0 ≤ exponent then .ofUnits negative (n * f.one * Nat.pow 2 exponent.toNat) 1
  else .ofUnits negative (n * f.one) (Nat.pow 2 (-exponent).toNat)

/-- The float that a hexadecimal text behind its mark spells. -/
def hexFloatOf? (negative : Bool) (text : Bytes) : Option Binary64 :=
  let front := text.takeWhile isHexDigit
  let (places, rest) := match text.dropWhile isHexDigit with
    | 46 :: rest => (rest.takeWhile isHexDigit, rest.dropWhile isHexDigit)
    | rest => ([], rest)
  if front.isEmpty && places.isEmpty then none
  else (binaryExponent? rest).map fun exponent =>
    scaled negative (hexDigitsValue (front ++ places)) (exponent - 4 * places.length)

/-- The float that a text without blanks spells. -/
def floatOf? (text : Bytes) : Option Binary64 :=
  let (negative, digits) := splitSign text
  match afterHexMark? digits with
  | some digits => hexFloatOf? negative digits
  | none =>
      (Binary64.numeralOf? (digits.map fun b => Char.ofNat b.toNat)).map
        (Binary64.ofDecimal negative)

/-- The number that a text spells, with blanks around it. -/
def numberOf? (text : Bytes) : Option Datum :=
  let text := trimSpaces text
  match integerOf? text with
  | some n => some (.integer n)
  | none => (floatOf? text).map .float

/-- How many significant digits a float is shown with. -/
def shownDigits : Nat := 14

/-- The text of a finite float with a count of significant digits; zeros at the end are left out. -/
def significant (digits : Nat) (x : Binary64) : List Char :=
  let f := FloatFormat.double
  let d := if x.unsigned = 0 then ⟨0, 0⟩ else (Decimal.rounded f x.unsigned digits).trim
  x.signText ++ d.text (.general digits)

/-- The name of a float that is not finite. -/
def specialText (x : Binary64) : List Char :=
  x.signText ++ (if x.isNaN then "nan" else "inf").toList

/-- The text of a float: whole ones keep a decimal place. -/
def floatText (x : Binary64) : List Char :=
  if x.isFinite then
    let text := significant shownDigits x
    if text.all fun c => c.isDigit || c == '-' then text ++ ".0".toList else text
  else specialText x

namespace Datum

/-- The text of a number. -/
def numeral? : Datum → Option Bytes
  | integer n => some (ascii (decimalText n))
  | float x => some (ascii (floatText x))
  | _ => none

/-- A string, or a number as its text. -/
def asText? : Datum → Option Bytes
  | string bytes => some bytes
  | d => d.numeral?

/-- A number, or the number that a string spells. -/
def asNumber? : Datum → Option Datum
  | string bytes => numberOf? bytes
  | d => if d.isNumber then some d else none

/-- The integer that a number is equal to. -/
def exactInteger? : Datum → Option Int
  | integer n => some n
  | float x => x.integral
  | _ => none

/-- A number as a float. -/
def asFloat? : Datum → Option Binary64
  | integer n => some (.ofInt n)
  | float x => some x
  | _ => none

end Datum

end ScriptHost.Script
