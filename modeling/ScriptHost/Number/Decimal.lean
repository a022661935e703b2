import ScriptHost.Number.Binary64

set_option autoImplicit false

/- Decimal numerals of binary numbers: the number nearest to a numeral, and the shortest numeral
that reads back as a given number. The second is found with the first, so that it reads back by
construction. -/
namespace ScriptHost

/-- A numeral: a coefficient times a power of ten. -/
structure Decimal where
  coefficient : Nat
  exponent : Int
deriving DecidableEq, Repr

namespace FloatFormat

/-- The unsigned pattern nearest to a numeral. Numerals far outside the format's range are decided
without building their powers of ten. -/
def ofDecimal (f : FloatFormat) (d : Decimal) : Nat :=
  if d.coefficient = 0 then 0
  else if d.exponent > f.unitExponent then f.infinity
  else if d.exponent + (d.coefficient.log2 / 3 + 1) < -(f.unitExponent : Int) then 0
  else if 0 ≤ d.exponent then f.ofRatio (d.coefficient * Nat.pow 10 d.exponent.toNat * f.one) 1
  else f.ofRatio (d.coefficient * f.one) (Nat.pow 10 (-d.exponent).toNat)

end FloatFormat

namespace Decimal

/-- How many decimal digits a natural has; zero has none. -/
def digitCount (n : Nat) : Nat := if n = 0 then 0 else (Nat.toDigits 10 n).length

/-- The exponent `k` with `10 ^ (k - 1) ≤ n / d < 10 ^ k`, for a positive quotient. -/
def leadingExponent (n d : Nat) : Int :=
  if d ≤ n then digitCount (n / d) else 1 - (digitCount ((d + n - 1) / n - 1) : Int)

/-- The whole part of a quotient divided by a power of ten, and whether the rest is past a half,
with a half counted for odd whole parts. -/
def gridBelow (n d : Nat) (exponent : Int) : Nat × Bool :=
  let top := if 0 ≤ exponent then n else n * Nat.pow 10 (-exponent).toNat
  let bottom := if 0 ≤ exponent then d * Nat.pow 10 exponent.toNat else d
  (top / bottom, roundDiv top bottom != top / bottom)

/-- The nearer of the two neighbours with the given exponent that reads back as the pattern. -/
def onGrid (f : FloatFormat) (pattern n d : Nat) (exponent : Int) : Option Decimal :=
  let (below, up) := gridBelow n d exponent
  let low : Decimal := ⟨below, exponent⟩
  let high : Decimal := ⟨below + 1, exponent⟩
  let order := if up then [high, low] else [low, high]
  order.find? fun c => f.ofDecimal c == pattern

/-- Drops the zeros at the end of a coefficient. -/
def trim (d : Decimal) : Decimal :=
  go (digitCount d.coefficient) d
where
  go : Nat → Decimal → Decimal
    | 0, d => d
    | fuel + 1, d =>
        if d.coefficient % 10 = 0 ∧ d.coefficient ≠ 0 then
          go fuel ⟨d.coefficient / 10, d.exponent + 1⟩
        else d

/-- The numeral of a positive finite pattern with the fewest digits that reads back, and of those
the nearest; its whole binary expansion if seventeen digits were not enough. -/
def shortest (f : FloatFormat) (pattern : Nat) : Decimal :=
  let n := f.magnitude pattern
  let leading := leadingExponent n f.one
  let found := (List.range 17).findSome? fun i => onGrid f pattern n f.one (leading - (i + 1 : Nat))
  trim (found.getD ⟨n * Nat.pow 5 f.unitExponent, -f.unitExponent⟩)

/-- The nearest numeral of a positive finite pattern with a given count of digits. -/
def rounded (f : FloatFormat) (pattern digits : Nat) : Decimal :=
  let n := f.magnitude pattern
  let exponent := leadingExponent n f.one - digits
  let (below, up) := gridBelow n f.one exponent
  ⟨if up then below + 1 else below, exponent⟩

/-- The nearest numeral of a finite pattern with a given count of decimal places. -/
def withPlaces (f : FloatFormat) (pattern places : Nat) : Nat :=
  roundDiv (f.magnitude pattern * Nat.pow 10 places) f.one

end Decimal

namespace Binary64

/-- The number nearest to a signed numeral. -/
def ofDecimal (negative : Bool) (d : Decimal) : Binary64 :=
  ofUnsigned negative (FloatFormat.double.ofDecimal d)

end Binary64

end ScriptHost
