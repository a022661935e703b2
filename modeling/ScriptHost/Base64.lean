set_option autoImplicit false

namespace ScriptHost.Base64

/-- Why a text is not the written form of any bytes. -/
inductive Fault where
  | symbol (byte : UInt8) (offset : Nat)
  | lastSymbol (byte : UInt8) (offset : Nat)
  | length (count : Nat)
  | padding
deriving DecidableEq, Repr

def Fault.message : Fault → String
  | symbol byte offset =>
      "Invalid symbol " ++ toString byte ++ ", offset " ++ toString offset ++ "."
  | lastSymbol byte offset =>
      "Invalid last symbol " ++ toString byte ++ ", offset " ++ toString offset ++ "."
  | length count => "Invalid input length: " ++ toString count
  | padding => "Invalid padding"

/-- The byte written after the symbols of a last group that is not full. -/
def pad : UInt8 := 61

/-- The symbol of a value below sixty-four. -/
def symbol (n : Nat) : UInt8 :=
  UInt8.ofNat
    (if n < 26 then 65 + n
    else if n < 52 then 71 + n
    else if n < 62 then n - 4
    else if n = 62 then 43
    else 47)

/-- The value of a symbol. -/
def value? (byte : UInt8) : Option Nat :=
  let n := byte.toNat
  if 65 ≤ n ∧ n ≤ 90 then some (n - 65)
  else if 97 ≤ n ∧ n ≤ 122 then some (n - 71)
  else if 48 ≤ n ∧ n ≤ 57 then some (n + 4)
  else if n = 43 then some 62
  else if n = 47 then some 63
  else none

/-- The written form of some bytes, three at a time. -/
def encode : List UInt8 → List UInt8
  | [] => []
  | [a] =>
      let n := a.toNat * 16
      [symbol (n / 64), symbol (n % 64), pad, pad]
  | [a, b] =>
      let n := (a.toNat * 256 + b.toNat) * 4
      [symbol (n / 4096), symbol (n / 64 % 64), symbol (n % 64), pad]
  | a :: b :: c :: rest =>
      let n := (a.toNat * 256 + b.toNat) * 256 + c.toNat
      symbol (n / 262144) :: symbol (n / 4096 % 64) :: symbol (n / 64 % 64) :: symbol (n % 64) ::
        encode rest

/-- The value of the symbol at an offset. -/
def valueAt (offset : Nat) (byte : UInt8) : Except Fault Nat :=
  match value? byte with
  | some n => .ok n
  | none => .error (.symbol byte offset)

/-- The last group: the values of its symbols and the count of its padding. The group begins at
`start`; `values` holds what was read and `padding` counts the padding so far. -/
def lastGroup (start : Nat) (values : List Nat) (padding : Nat) :
    List UInt8 → Except Fault (List Nat × Nat)
  | [] => .ok (values, padding)
  | byte :: rest =>
      if byte = pad then
        if values.length + padding < 2 then .error (.symbol byte (start + values.length + padding))
        else lastGroup start values (padding + 1) rest
      else if 0 < padding then .error (.symbol pad (start + values.length))
      else
        match valueAt (start + values.length) byte with
        | .ok n => lastGroup start (values ++ [n]) padding rest
        | .error fault => .error fault

/-- The bytes of the last group, from its values; the unused bits must be zero. -/
def lastBytes (start : Nat) (group : List UInt8) : List Nat → Except Fault (List UInt8)
  | [a, b] =>
      if b % 16 = 0 then .ok [UInt8.ofNat (a * 4 + b / 16)]
      else .error (.lastSymbol (group.getD 1 0) (start + 1))
  | [a, b, c] =>
      if c % 4 = 0 then .ok [UInt8.ofNat (a * 4 + b / 16), UInt8.ofNat (b % 16 * 16 + c / 4)]
      else .error (.lastSymbol (group.getD 2 0) (start + 2))
  | [a, b, c, d] =>
      .ok [UInt8.ofNat (a * 4 + b / 16), UInt8.ofNat (b % 16 * 16 + c / 4),
        UInt8.ofNat (c % 4 * 64 + d)]
  | _ => .ok []

/-- Reads the last group of a text, which begins at an offset. -/
def decodeLast (start : Nat) (group : List UInt8) : Except Fault (List UInt8) :=
  match lastGroup start [] 0 group with
  | .error fault => .error fault
  | .ok (values, padding) =>
      if values.length < 2 then .error (.length (start + values.length))
      else if (values.length + padding) % 4 ≠ 0 then .error .padding
      else lastBytes start group values

/-- Reads the groups of a text from an offset on; the last group is the one behind which nothing
follows. -/
def decodeFrom (start : Nat) : List UInt8 → Except Fault (List UInt8)
  | a :: b :: c :: d :: e :: rest => do
      let a ← valueAt start a
      let b ← valueAt (start + 1) b
      let c ← valueAt (start + 2) c
      let d ← valueAt (start + 3) d
      let bytes ← decodeFrom (start + 4) (e :: rest)
      return UInt8.ofNat (a * 4 + b / 16) :: UInt8.ofNat (b % 16 * 16 + c / 4) ::
        UInt8.ofNat (c % 4 * 64 + d) :: bytes
  | [] => .ok []
  | group => decodeLast start group

/-- The bytes of a written form. A single byte behind full groups that is no symbol is reported
before all else. -/
def decode (text : List UInt8) : Except Fault (List UInt8) :=
  match text.getLast? with
  | some last =>
      if text.length % 4 = 1 ∧ last ≠ pad ∧ (value? last).isNone then
        .error (.symbol last (text.length - 1))
      else decodeFrom 0 text
  | none => .ok []

end ScriptHost.Base64
