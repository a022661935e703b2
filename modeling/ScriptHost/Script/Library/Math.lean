import ScriptHost.Script.Library.Argument

set_option autoImplicit false

namespace ScriptHost.Script.MathFunction

/-- A whole float as an integer, if it fits. -/
def asInteger (x : Binary64) : Datum :=
  match x.integral with
  | some n => .integer n
  | none => .float x

/-- The greatest integer not above a number. -/
def roundedBy (round : Binary64 → Binary64) (a : Activation) : Run (List Datum) := do
  match a.arg 1 with
  | .integer n => return [.integer n]
  | _ => return [asInteger (round (← a.float 1))]

def absolute (a : Activation) : Run (List Datum) := do
  match ← a.number 1 with
  | .integer n => return [.integer (wrap n.natAbs)]
  | value => return [.float (.ofUnsigned false (value.asFloat?.getD .zero).unsigned)]

/-- The argument that comes first in an order. -/
def firstBy (before : Datum → Datum → Bool) (a : Activation) : Run (List Datum) := do
  let first ← a.number 1
  let rest ← (List.range' 2 (a.args.length - 1)).mapM a.number
  return [rest.foldl (fun best n => if before n best then n else best) first]

def numberLess (a b : Datum) : Bool := (Datum.numberLess? a b).getD false

def remainder (a : Activation) : Run (List Datum) := do
  let m ← a.number 1
  let n ← a.number 2
  match m, n with
  | .integer m, .integer n =>
      if n = 0 then a.badArgument 2 (utf8 "zero") else return [.integer (m.tmod n)]
  | _, _ =>
      let x := m.asFloat?.getD .zero
      return [.float (x.truncatedRemainder (n.asFloat?.getD .zero))]

def squareRoot (x : Binary64) : Binary64 :=
  if x.isNaN then x
  else
    let result : Binary64 := ⟨(Float.sqrt (Float.ofBits x.bits)).toBits⟩
    if result.isNaN then .invalid else result

def toInteger (a : Activation) : Run (List Datum) := do
  match (← a.any 1).asNumber?.bind Datum.exactInteger? with
  | some n => return [.integer n]
  | none => return [.nil]

def kindOf (a : Activation) : Run (List Datum) := do
  match ← a.any 1 with
  | .integer _ => return [.text "integer"]
  | .float _ => return [.text "float"]
  | _ => return [.nil]

def run (f : MathFunction) (a : Activation) : Run (List Datum) :=
  match f with
  | floor => roundedBy Binary64.floor a
  | ceil => roundedBy Binary64.ceil a
  | abs => absolute a
  | max => firstBy (fun n best => numberLess best n) a
  | min => firstBy numberLess a
  | fmod => remainder a
  | sqrt => return [.float (squareRoot (← a.float 1))]
  | tointeger => toInteger a
  | type => kindOf a
  | ult => do
      let m ← a.integer 1
      let n ← a.integer 2
      return [.bool ((bitsOf m).ult (bitsOf n))]

/-- The values that stand beside the functions. -/
def constants : List (String × Datum) :=
  [("pi", .float ⟨0x400921FB54442D18⟩), ("huge", .float (.infinity false)),
    ("maxinteger", .integer (Binary64.wordLimit - 1)),
    ("mininteger", .integer (-Binary64.wordLimit))]

end ScriptHost.Script.MathFunction
