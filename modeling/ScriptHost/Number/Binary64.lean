import ScriptHost.Number.Format

set_option autoImplicit false

namespace ScriptHost

/-- A binary64 number, given by its sixty-four bits. Order, whole parts and the four operations are
computed on magnitudes in units of the least positive number and rounded once. -/
structure Binary64 where
  bits : UInt64
deriving DecidableEq, Hashable, Inhabited, Repr

namespace Binary64

open FloatFormat

/-- The pattern without its sign. -/
def unsigned (x : Binary64) : Nat := x.bits.toNat % double.signBit

def isNegative (x : Binary64) : Bool := double.signBit ≤ x.bits.toNat

def isNaN (x : Binary64) : Bool := double.infinity < x.unsigned

def isInfinite (x : Binary64) : Bool := x.unsigned == double.infinity

def isFinite (x : Binary64) : Bool := x.unsigned < double.infinity

/-- The magnitude of a finite number, in units of the least positive number. -/
def magnitude (x : Binary64) : Nat := double.magnitude x.unsigned

/-- The number with the given sign and unsigned pattern. -/
def ofUnsigned (negative : Bool) (pattern : Nat) : Binary64 :=
  ⟨UInt64.ofNat (if negative then double.signBit + pattern else pattern)⟩

/-- The number nearest to a signed quotient of naturals, counted in units. -/
def ofUnits (negative : Bool) (numerator denominator : Nat) : Binary64 :=
  ofUnsigned negative (double.ofRatio numerator denominator)

def zero : Binary64 := ⟨0⟩

def infinity (negative : Bool) : Binary64 := ofUnsigned negative double.infinity

/-- The quiet pattern that is not a number. -/
def nan (negative : Bool) : Binary64 :=
  ofUnsigned negative (double.infinity + double.hidden / 2)

/-- The number nearest to an integer. -/
def ofInt (n : Int) : Binary64 := ofUnits (n < 0) (n.natAbs * double.one) 1

/-- The binary64 number equal to a binary32 one, given by its bits. -/
def ofSingle (bits : UInt32) : Binary64 :=
  let negative := decide (single.signBit ≤ bits.toNat)
  let pattern := bits.toNat % single.signBit
  if pattern < single.infinity then
    let shift := double.unitExponent - single.unitExponent
    ofUnits negative (single.magnitude pattern * Nat.pow 2 shift) 1
  else if pattern = single.infinity then infinity negative
  else nan negative

/-- The place of a number in the order of all numbers; both zeros have place zero. -/
def rank (x : Binary64) : Int :=
  if x.isNegative then -(x.unsigned : Int) else x.unsigned

/-- Numeric equality: the zeros are equal, and what is not a number differs from itself. -/
def equal (x y : Binary64) : Bool := !x.isNaN && !y.isNaN && x.rank == y.rank

def less (x y : Binary64) : Bool := !x.isNaN && !y.isNaN && x.rank < y.rank

def lessEqual (x y : Binary64) : Bool := !x.isNaN && !y.isNaN && x.rank ≤ y.rank

def neg (x : Binary64) : Binary64 := ⟨x.bits ^^^ 0x8000000000000000⟩

/-- The signed magnitude of a finite number, in units. -/
def signed (x : Binary64) : Int :=
  if x.isNegative then -(x.magnitude : Int) else x.magnitude

/-- The number nearest to a signed count of units; a zero takes the given sign. -/
def ofSigned (zeroNegative : Bool) (units : Int) : Binary64 :=
  ofUnits (if units = 0 then zeroNegative else units < 0) units.natAbs 1

/-- The result of an operation on operands of which one is not a number: the first such operand. -/
def firstNaN (x y : Binary64) : Binary64 := if x.isNaN then x else y

/-- The result of an operation that has none. -/
def invalid : Binary64 := nan true

def add (x y : Binary64) : Binary64 :=
  if x.isNaN || y.isNaN then firstNaN x y
  else if x.isInfinite then
    if y.isInfinite && x.isNegative != y.isNegative then invalid else x
  else if y.isInfinite then y
  else ofSigned (x.isNegative && y.isNegative) (x.signed + y.signed)

def sub (x y : Binary64) : Binary64 :=
  if x.isNaN || y.isNaN then firstNaN x y else add x y.neg

def mul (x y : Binary64) : Binary64 :=
  let negative := x.isNegative != y.isNegative
  if x.isNaN || y.isNaN then firstNaN x y
  else if x.isInfinite || y.isInfinite then
    if x.unsigned == 0 || y.unsigned == 0 then invalid else infinity negative
  else ofUnits negative (x.magnitude * y.magnitude) double.one

def div (x y : Binary64) : Binary64 :=
  let negative := x.isNegative != y.isNegative
  if x.isNaN || y.isNaN then firstNaN x y
  else if x.isInfinite then
    if y.isInfinite then invalid else infinity negative
  else if y.isInfinite then ofUnsigned negative 0
  else if y.unsigned == 0 then
    if x.unsigned == 0 then invalid else infinity negative
  else ofUnits negative (x.magnitude * double.one) y.magnitude

/-- The integer a finite number is equal to, if any. -/
def toInt? (x : Binary64) : Option Int :=
  if x.isFinite && x.magnitude % double.one == 0 then some (x.signed / double.one) else none

/-- The greatest integer not above a finite number. -/
def floorInt (x : Binary64) : Int := x.signed / double.one

/-- The greatest whole number not above a number; infinities, zeros and NaN stay. -/
def floor (x : Binary64) : Binary64 :=
  if x.isFinite && x.unsigned != 0 then
    ofSigned x.isNegative (x.floorInt * double.one)
  else x

/-- The least whole number not below a number. -/
def ceil (x : Binary64) : Binary64 := x.neg.floor.neg

/-- The remainder of the truncated quotient of two numbers, with the sign of the first. -/
def truncatedRemainder (x y : Binary64) : Binary64 :=
  if x.isNaN || y.isNaN then firstNaN x y
  else if x.isInfinite || y.unsigned == 0 then invalid
  else if y.isInfinite then x
  else ofSigned x.isNegative (x.signed.tmod y.signed)

/-- The least value of a signed sixty-four bit integer is the negative of this. -/
def wordLimit : Int := 9223372036854775808

/-- Whether an integer fits in a signed sixty-four bit word. -/
def isWord (n : Int) : Bool := -wordLimit ≤ n && n < wordLimit

/-- A number without what is behind its point. -/
def trunc (x : Binary64) : Binary64 :=
  if x.isFinite then ofUnits x.isNegative (x.magnitude / double.one * double.one) 1 else x

/-- What is behind the point of a number. -/
def fract (x : Binary64) : Binary64 := x.sub x.trunc

/-- The signed word nearest to what is in front of the point of a number, and zero for NaN. -/
def toWord (x : Binary64) : Int :=
  if x.isNaN then 0
  else if x.isInfinite then if x.isNegative then -wordLimit else wordLimit - 1
  else max (-wordLimit) (min (x.signed.tdiv double.one) (wordLimit - 1))

/-- The word limit as a number; the greatest signed word is none. -/
def limit : Binary64 := ⟨0x43E0000000000000⟩

/-- The integer a number is equal to, if it is whole and fits in a signed sixty-four bit word. -/
@[irreducible] def integral (x : Binary64) : Option Int :=
  if x.fract.equal zero && limit.neg.lessEqual x && x.less limit then some x.toWord else none

end Binary64

end ScriptHost
