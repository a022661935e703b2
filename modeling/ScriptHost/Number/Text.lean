import ScriptHost.Number.Decimal

set_option autoImplicit false

namespace ScriptHost

/-- What a number format decides: the exponents of the leading digit that are written positionally,
what follows a whole positional number, and the least width of a written exponent. -/
structure NumberStyle where
  least : Option Int
  limit : Option Int
  whole : String
  exponentWidth : Nat

namespace NumberStyle

def isPositional (s : NumberStyle) (leading : Int) : Bool :=
  s.least.all (· ≤ leading) && s.limit.all (leading < ·)

/-- Never an exponent, and no point in whole numbers. -/
def plain : NumberStyle := ⟨none, none, "", 1⟩

/-- Positional from `1e-5` up to `1e16`, where whole numbers keep a decimal place. -/
def json : NumberStyle := ⟨some (-5), some 16, ".0", 1⟩

/-- Positional from `1e-4` up to a count of digits, exponents with two digits at least. -/
def general (digits : Nat) : NumberStyle := ⟨some (-4), some digits, "", 2⟩

end NumberStyle

namespace Decimal

def digits (d : Decimal) : List Char := Nat.toDigits 10 d.coefficient

/-- The exponent of the leading digit. -/
def leading (d : Decimal) : Int := d.digits.length + d.exponent - 1

/-- A text padded with zeros on the left to a least width. -/
def padLeft (width : Nat) (text : List Char) : List Char :=
  List.replicate (width - text.length) '0' ++ text

/-- All digits at their place, with a point where the fraction begins. -/
def positional (d : Decimal) (whole : String) : List Char :=
  let digits := d.digits
  if 0 ≤ d.exponent then digits ++ List.replicate d.exponent.toNat '0' ++ whole.toList
  else
    let places := (-d.exponent).toNat
    let padded := padLeft (places + 1) digits
    let split := padded.length - places
    padded.take split ++ '.' :: padded.drop split

/-- One digit, the rest of them after a point, and the exponent with its sign. -/
def scientific (d : Decimal) (exponentWidth : Nat) : List Char :=
  let mantissa := match d.digits with
    | first :: second :: rest => first :: '.' :: second :: rest
    | short => short
  let sign := if d.leading < 0 then '-' else '+'
  mantissa ++ 'e' :: sign :: padLeft exponentWidth (Nat.toDigits 10 d.leading.natAbs)

def text (d : Decimal) (style : NumberStyle) : List Char :=
  if style.isPositional d.leading then d.positional style.whole
  else d.scientific style.exponentWidth

end Decimal

/-- The text of an unsigned finite pattern by its shortest numeral. -/
def FloatFormat.shortestText (f : FloatFormat) (style : NumberStyle) (pattern : Nat) : List Char :=
  if pattern = 0 then (⟨0, 0⟩ : Decimal).text style else (Decimal.shortest f pattern).text style

namespace Binary64

def signText (x : Binary64) : List Char := if x.isNegative then ['-'] else []

/-- The shortest text that reads back, for a finite number. -/
def shortestText (style : NumberStyle) (x : Binary64) : List Char :=
  x.signText ++ FloatFormat.double.shortestText style x.unsigned

/-- The text of a number outside of documents: never an exponent. -/
def plainText (x : Binary64) : String :=
  if x.isNaN then "NaN"
  else if x.isInfinite then String.ofList (x.signText ++ "inf".toList)
  else String.ofList (x.shortestText .plain)

end Binary64

/-- The plain text of a binary32 number given by its bits. -/
def singlePlainText (bits : UInt32) : String :=
  let f := FloatFormat.single
  let pattern := bits.toNat % f.signBit
  let sign := if f.signBit ≤ bits.toNat then "-" else ""
  if f.infinity < pattern then "NaN"
  else if pattern = f.infinity then sign ++ "inf"
  else sign ++ String.ofList (f.shortestText .plain pattern)

end ScriptHost
