import ScriptHost.Script.Ast
import ScriptHost.Script.Numeral

set_option autoImplicit false

namespace ScriptHost.Script

/-- Why numbers have no result. -/
inductive NumberFault where
  | divisionByZero
  | remainderByZero
  /-- An operand is not equal to an integer. -/
  | notInteger
deriving DecidableEq, Repr

/-- An integer as bits. -/
def bitsOf (n : Int) : BitVec 64 := BitVec.ofInt 64 n

/-- Bits moved to the left by a count, or to the right by a negative one, with zeros moving in. -/
def shiftLeft (bits : BitVec 64) (count : Int) : BitVec 64 :=
  if 64 ≤ count.natAbs then 0
  else if 0 ≤ count then bits <<< count.toNat
  else bits >>> (-count).toNat

/-- The remainder with the sign of the divisor. -/
def flooredRemainder (x y : Binary64) : Binary64 :=
  let r := x.truncatedRemainder y
  let mends := if Binary64.zero.less r then y.less .zero
    else r.less .zero && !y.isNaN && y.isNegative != r.isNegative
  if mends then r.add y else r

/-- A power, as the machine computes it. -/
def power (x y : Binary64) : Binary64 :=
  if y = .ofInt 2 then x.mul x
  else
    let result : Binary64 := ⟨(Float.pow (Float.ofBits x.bits) (Float.ofBits y.bits)).toBits⟩
    if result.isNaN then if x.isNaN || y.isNaN then .firstNaN x y else .invalid else result

def integerOp (op : BinaryOp) (a b : Int) : Except NumberFault Datum :=
  match op with
  | .add => .ok (.integer (wrap (a + b)))
  | .sub => .ok (.integer (wrap (a - b)))
  | .mul => .ok (.integer (wrap (a * b)))
  | .idiv => if b = 0 then .error .divisionByZero else .ok (.integer (wrap (a.fdiv b)))
  | .mod => if b = 0 then .error .remainderByZero else .ok (.integer (a.fmod b))
  | .div => .ok (.float ((Binary64.ofInt a).div (.ofInt b)))
  | .pow => .ok (.float (power (.ofInt a) (.ofInt b)))
  | .band => .ok (.integer (bitsOf a &&& bitsOf b).toInt)
  | .bor => .ok (.integer (bitsOf a ||| bitsOf b).toInt)
  | .bxor => .ok (.integer (bitsOf a ^^^ bitsOf b).toInt)
  | .shl => .ok (.integer (shiftLeft (bitsOf a) b).toInt)
  | .shr => .ok (.integer (shiftLeft (bitsOf a) (-b)).toInt)
  | _ => .ok .nil

def floatOp (op : BinaryOp) (x y : Binary64) : Datum :=
  match op with
  | .add => .float (x.add y)
  | .sub => .float (x.sub y)
  | .mul => .float (x.mul y)
  | .div => .float (x.div y)
  | .idiv => .float (x.div y).floor
  | .mod => .float (flooredRemainder x y)
  | .pow => .float (power x y)
  | _ => .nil

namespace BinaryOp

/-- Whether an operation works on the bits of integers. -/
def isBitwise : BinaryOp → Bool
  | band | bor | bxor | shl | shr => true
  | _ => false

/-- The result of an operation on numbers; none if an operand is not a number. -/
def onNumbers? (op : BinaryOp) (a b : Datum) : Option (Except NumberFault Datum) :=
  match a, b with
  | .integer m, .integer n => some (integerOp op m n)
  | _, _ =>
      match a.asFloat?, b.asFloat? with
      | some x, some y =>
          if op.isBitwise then
            match a.exactInteger?, b.exactInteger? with
            | some m, some n => some (integerOp op m n)
            | _, _ => some (.error .notInteger)
          else some (.ok (floatOp op x y))
      | _, _ => none

end BinaryOp

namespace Datum

/-- The negative of a number. -/
def negated? : Datum → Option Datum
  | integer n => some (.integer (wrap (-n)))
  | float x => some (.float x.neg)
  | _ => none

/-- Whether an integer is less than a float. -/
def integerLessFloat (n : Int) (x : Binary64) : Bool :=
  if x.isNaN then false
  else if x.isInfinite then !x.isNegative
  else n * FloatFormat.double.one < x.signed

def floatLessInteger (x : Binary64) (n : Int) : Bool :=
  if x.isNaN then false
  else if x.isInfinite then x.isNegative
  else x.signed < n * FloatFormat.double.one

/-- Whether a number is less than another, by their exact values; none if one is not a number. -/
def numberLess? : Datum → Datum → Option Bool
  | integer m, integer n => some (m < n)
  | float x, float y => some (x.less y)
  | integer m, float y => some (integerLessFloat m y)
  | float x, integer n => some (floatLessInteger x n)
  | _, _ => none

/-- Whether a number is at most another. -/
def numberLessEqual? : Datum → Datum → Option Bool
  | integer m, integer n => some (m ≤ n)
  | float x, float y => some (x.lessEqual y)
  | integer m, float y => some (!y.isNaN && !floatLessInteger y m)
  | float x, integer n => some (!x.isNaN && !integerLessFloat n x)
  | _, _ => none

/-- Equality without regard to what tables define: numbers by value, all else by identity. -/
def rawEqual : Datum → Datum → Bool
  | float x, float y => x.equal y
  | integer m, float y => y.integral == some m
  | float x, integer n => x.integral == some n
  | a, b => a == b

/-- A value as a key: a float equal to an integer is that integer. -/
def asKey : Datum → Datum
  | float x =>
      match x.integral with
      | some n => integer n
      | none => float x
  | d => d

end Datum

/-- Whether a text comes before another, byte by byte. -/
def bytesLess : Bytes → Bytes → Bool
  | _, [] => false
  | [], _ :: _ => true
  | a :: as, b :: bs => a < b || (a == b && bytesLess as bs)

end ScriptHost.Script
