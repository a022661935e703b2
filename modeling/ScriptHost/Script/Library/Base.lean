import ScriptHost.Script.Library.Argument

set_option autoImplicit false

namespace ScriptHost.Script.BaseFunction

/-- What a call that may fail yields: true and its results, or false and what it failed with. -/
def protect (call : Run (List Datum)) (failed : Datum → Run (List Datum)) : Run (List Datum) :=
  fun h => match call h with
    | .ok results h => .ok (.bool true :: results) h
    | .error (.error value) h => failed value h
    | .error .exhausted h => .error .exhausted h

/-- Raises a value; a text gets the position of a running call before it, by its level. -/
def raiseAt {α : Type} (a : Activation) (level : Int) (value : Datum) : Run α :=
  match value with
  | .string text =>
      let line := if 0 < level then (a.context.sites[(level - 1).toNat]?).bind Site.line else none
      Run.raise (.string (positionText line ++ text))
  | _ => Run.raise value

/-- The value of a letter or digit as a digit of a base of up to thirty-six. -/
def digitOf? (byte : UInt8) : Option Nat :=
  if isDigit byte then some (digitValue byte)
  else if 97 ≤ byte && byte ≤ 122 then some (byte.toNat - 87)
  else if 65 ≤ byte && byte ≤ 90 then some (byte.toNat - 55)
  else none

/-- The integer that a text spells in a base. -/
def integerInBase? (base : Nat) (text : Bytes) : Option Int :=
  let (negative, digits) := splitSign (trimSpaces text)
  if digits.isEmpty then none
  else
    let step (n : Nat) (byte : UInt8) : Option Nat :=
      (digitOf? byte).bind fun digit => if digit < base then some (n * base + digit) else none
    (digits.foldlM step 0).map fun n => wrap (if negative then -(n : Int) else n)

def toNumber (a : Activation) : Run (List Datum) := do
  if (a.arg 2).isNil then
    match (← a.any 1).asNumber? with
    | some value => return [value]
    | none => return [.nil]
  else
    let base ← a.integer 2
    match a.arg 1 with
    | .string text =>
        if base < 2 ∨ 36 < base then a.badArgument 2 (utf8 "base out of range")
        else return [((integerInBase? base.toNat text).map .integer).getD .nil]
    | _ => a.wrongType 1 "string"

def selectFrom (a : Activation) : Run (List Datum) := do
  match a.arg 1 with
  | .string (35 :: _) => return [.integer (a.args.length - 1)]
  | _ =>
      let count : Int := a.args.length
      let n ← a.integer 1
      let first := if n < 0 then count + n else min n count
      if first < 1 then a.badArgument 1 (utf8 "index out of range")
      else return a.args.drop first.toNat

def traverse (a : Activation) : Run (List Datum) := do
  let value ← a.any 1
  let standing ← Context.handler "pairs" value
  if standing.isNil then return [.builtin (.base .next), value, .nil]
  else
    let results ← a.invoke standing [value]
    return (results ++ List.replicate 3 Datum.nil).take 3

def nextEntry (a : Activation) : Run (List Datum) := do
  let id ← a.table 1
  match (← Run.table id).next? (a.arg 2) with
  | some (some (key, value)) => return [key, value]
  | some none => return [.nil]
  | none => Run.raise (.text "invalid key to 'next'")

def nextItem (a : Activation) : Run (List Datum) := do
  let n := wrap ((← a.integer 2) + 1)
  let value ← a.index (a.arg 1) n
  if value.isNil then return [.nil] else return [.integer n, value]

def rawLength (a : Activation) : Run (List Datum) :=
  match a.arg 1 with
  | .table id => return [.integer (← Run.table id).length]
  | .string bytes => return [.integer bytes.length]
  | _ => a.wrongType 1 "table or string"

def setMetatable (a : Activation) : Run (List Datum) := do
  let id ← a.table 1
  let metatable ← match a.arg? 2 with
    | some .nil => pure none
    | some (.table metatable) => pure (some metatable)
    | _ => a.wrongType 2 "nil or table"
  if (← Context.handler "metatable" (.table id)).isNil then
    Run.changeTable id fun t => { t with metatable := metatable }
    return [.table id]
  else a.fail (utf8 "cannot change a protected metatable")

def getMetatable (a : Activation) : Run (List Datum) := do
  let value ← a.any 1
  let shown ← Context.handler "metatable" value
  if !shown.isNil then return [shown]
  else return [(((← get).metatableOf? value).map .table).getD .nil]

/-- Fails without a position. -/
def failPlainly {α : Type} (message : String) : Run α := Run.raise (.text message)

def run (f : BaseFunction) (a : Activation) : Run (List Datum) :=
  match f with
  | print => do
      let _ ← a.args.mapM a.context.textOf
      return []
  | type => return [.text (← a.any 1).typeName]
  | tostring => return [.string (← a.context.textOf (← a.any 1))]
  | tonumber => toNumber a
  | select => selectFrom a
  | pairs => traverse a
  | ipairs => return [.builtin (.base .ipairsStep), ← a.any 1, .integer 0]
  | ipairsStep => nextItem a
  | next => nextEntry a
  | error => do raiseAt a (← a.integerOr 2 1) (a.arg 1)
  | assert => do
      if (← a.any 1).truthy then return a.args
      else raiseAt a 1 ((a.arg? 2).getD (.text "assertion failed!"))
  | pcall =>
      match a.args with
      | [] => failPlainly "not enough arguments to pcall"
      | f :: args => protect (a.invoke f args) fun value => return [.bool false, value]
  | xpcall =>
      match a.args with
      | f :: handler :: args =>
          protect (a.invoke f args) fun value => do
            return [.bool false, (← a.invoke handler [value]).headD .nil]
      | _ => failPlainly "not enough arguments to xpcall"
  | rawlen => rawLength a
  | rawequal => return [.bool ((← a.any 1).rawEqual (← a.any 2))]
  | rawget => do
      let id ← a.table 1
      return [(← Run.table id).get (← a.any 2)]
  | rawset => do
      let id ← a.table 1
      a.context.rawSet id (← a.any 2) (← a.any 3)
      return [.table id]
  | setmetatable => setMetatable a
  | getmetatable => getMetatable a

end ScriptHost.Script.BaseFunction
