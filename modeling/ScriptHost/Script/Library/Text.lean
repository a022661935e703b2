import ScriptHost.Script.Library.Format

set_option autoImplicit false

namespace ScriptHost.Script.StringFunction

/-- Where a part begins, by a position that may count from the end. -/
def startOf (position : Int) (length : Nat) : Int :=
  if 0 < position then position
  else if position = 0 then 1
  else if position < -(length : Int) then 1
  else length + position + 1

/-- Where a part ends. -/
def endOf (position : Int) (length : Nat) : Int :=
  if (length : Int) < position then length
  else if 0 ≤ position then position
  else if position < -(length : Int) then 0
  else length + position + 1

/-- The bytes between two positions, both included. -/
def slice (text : Bytes) (first last : Int) : Bytes :=
  let start := startOf first text.length
  let stop := endOf last text.length
  if stop < start then [] else (text.drop (start - 1).toNat).take (stop - start + 1).toNat

/-- The longest text that can be made. -/
def sizeLimit : Nat := 2147483647

def repeated (a : Activation) : Run (List Datum) := do
  let text ← a.text 1
  let count := (← a.integer 2).toNat
  let separator ← a.textOr 3 []
  if count = 0 then return [.text ""]
  else if sizeLimit ≤ (text.length + separator.length) * count then
    a.fail (utf8 "resulting string too large")
  else
    let piece := separator ++ text
    return [.string (text ++ (List.replicate (count - 1) piece).flatten)]

def ofCodes (a : Activation) : Run (List Datum) := do
  let bytes ← (List.range' 1 a.args.length).mapM fun n => do
    let code ← a.integer n
    if 0 ≤ code ∧ code ≤ 255 then return UInt8.ofNat code.toNat
    else a.badArgument n (utf8 "value out of range")
  return [.string bytes]

def codes (a : Activation) : Run (List Datum) := do
  let text ← a.text 1
  let first ← a.integerOr 2 1
  let start := startOf first text.length
  let last ← a.integerOr 3 start
  return (slice text start last).map fun byte => Datum.integer byte.toNat

def upperByte (byte : UInt8) : UInt8 := if 97 ≤ byte && byte ≤ 122 then byte - 32 else byte

def lowerByte (byte : UInt8) : UInt8 := if 65 ≤ byte && byte ≤ 90 then byte + 32 else byte

def run (f : StringFunction) (a : Activation) : Run (List Datum) :=
  match f with
  | rep => repeated a
  | char => ofCodes a
  | byte => codes a
  | sub => do
      let text ← a.text 1
      let first ← a.integer 2
      return [.string (slice text first (← a.integerOr 3 (-1)))]
  | upper => return [.string ((← a.text 1).map upperByte)]
  | lower => return [.string ((← a.text 1).map lowerByte)]
  | reverse => return [.string (← a.text 1).reverse]
  | len => return [.integer (← a.text 1).length]
  | format => Format.run a

end ScriptHost.Script.StringFunction
