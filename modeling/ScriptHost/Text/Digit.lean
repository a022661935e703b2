set_option autoImplicit false

namespace ScriptHost

def isDigit (byte : UInt8) : Bool := 48 ≤ byte && byte ≤ 57

def digitValue (byte : UInt8) : Nat := byte.toNat - 48

/-- The value of a hexadecimal digit of either case. -/
def hexValue? (byte : UInt8) : Option Nat :=
  if isDigit byte then some (digitValue byte)
  else if 97 ≤ byte && byte ≤ 102 then some (byte.toNat - 87)
  else if 65 ≤ byte && byte ≤ 70 then some (byte.toNat - 55)
  else none

def isHexDigit (byte : UInt8) : Bool := (hexValue? byte).isSome

/-- The number that decimal digits spell, after the digits of a leading part. -/
def digitsValue (leading : Nat) (digits : List UInt8) : Nat :=
  digits.foldl (fun n byte => 10 * n + digitValue byte) leading

/-- The number that hexadecimal digits spell. -/
def hexDigitsValue (digits : List UInt8) : Nat :=
  digits.foldl (fun n byte => 16 * n + (hexValue? byte).getD 0) 0

/-- The bytes of a text of ASCII characters. -/
def ascii (text : List Char) : List UInt8 := text.map fun c => UInt8.ofNat c.toNat

/-- An integer in decimal. -/
def decimalText (n : Int) : List Char :=
  (if n < 0 then ['-'] else []) ++ Nat.toDigits 10 n.natAbs

end ScriptHost
