import ScriptHost.Script.Heap
import ScriptHost.Script.SyntaxError

set_option autoImplicit false

namespace ScriptHost.Script

/-- Where a function is called: the line, if a script calls it, and what the script calls it. -/
structure Site where
  line : Option Nat
  callee : Option Label
deriving DecidableEq, Repr

/-- Calls a function, given the sites of the calls that led to it, the latest first. -/
abbrev Call := List Site → Datum → List Datum → Run (List Datum)

/-- Who performs an operation: a line of a script, or none for a function that is in place; the
calls that led there; and how functions are called. -/
structure Context where
  line : Option Nat
  sites : List Site
  call : Call

/-- A name behind a message. -/
def labelText : Option Label → Bytes
  | some label => utf8 (" (" ++ label.kind ++ " '") ++ label.name ++ utf8 "')"
  | none => []

def positionText : Option Nat → Bytes
  | some line => position line
  | none => []

/-- The name of the field that stands in for an operation, without its bars. -/
def BinaryOp.event : BinaryOp → String
  | add => "add"
  | sub => "sub"
  | mul => "mul"
  | div => "div"
  | idiv => "idiv"
  | mod => "mod"
  | pow => "pow"
  | band => "band"
  | bor => "bor"
  | bxor => "bxor"
  | shl => "shl"
  | shr => "shr"
  | concat => "concat"
  | eq | ne => "eq"
  | lt | gt => "lt"
  | le | ge => "le"

def Datum.isString : Datum → Bool
  | string _ => true
  | _ => false

namespace Context

/-- Fails with a message, behind the position if there is one. -/
def fail {α : Type} (c : Context) (message : Bytes) : Run α :=
  Run.raise (.string (positionText c.line ++ message))

/-- Calls a function under a name. -/
def invoke (c : Context) (callee : Option Label) (f : Datum) (args : List Datum) :
    Run (List Datum) :=
  c.call (⟨c.line, callee⟩ :: c.sites) f args

/-- What the metatable of a value holds for an event. -/
def handler (event : String) (value : Datum) : Run Datum := Run.handler value ("__" ++ event)

/-- What stands in for an operation on two values: what the first one has, else the second. -/
def handlerOf (event : String) (a b : Datum) : Run Datum := do
  let first ← handler event a
  if first.isNil then handler event b else return first

/-- Calls what stands in for an operation, and takes its first result. -/
def standIn (c : Context) (event : String) (f : Datum) (args : List Datum) : Run Datum :=
  return (← c.invoke (some ⟨"metamethod", utf8 event⟩) f args).headD .nil

/-- Fails because a value has the wrong type. -/
def failType {α : Type} (c : Context) (action : String) (value : Datum) (label : Option Label) :
    Run α := do
  let name ← Run.typeName value
  c.fail (utf8 ("attempt to " ++ action ++ " a ") ++ name ++ utf8 " value" ++ labelText label)

/-- How many stand-ins an access to a table may pass through. -/
def chainLimit : Nat := 2000

/-- The value under a key, through so many stand-ins at most. -/
def indexFrom (c : Context) (key : Datum) : Nat → Option Label → Datum → Run Datum
  | 0, _, _ => c.fail (utf8 "'__index' chain too long; possibly a loop")
  | fuel + 1, label, object => do
      let own ← match object with
        | .table id => pure (some ((← Run.table id).get key))
        | _ => pure none
      if let some value := own then
        if !value.isNil then return value
      let standing ← handler "index" object
      if standing.isNil then
        if own.isSome then return .nil else c.failType "index" object label
      else if standing.isFunction then c.standIn "index" standing [object, key]
      else indexFrom c key fuel none standing

/-- The value under a key. -/
def index (c : Context) (label : Option Label) (object key : Datum) : Run Datum :=
  indexFrom c key chainLimit label object

/-- Puts a value under a key of a table, and nothing else. -/
def rawSet (c : Context) (id : Nat) (key value : Datum) : Run Unit :=
  if key.isNil then c.fail (utf8 "table index is nil")
  else if !Table.isKey key then c.fail (utf8 "table index is NaN")
  else Run.changeTable id (·.set key value)

/-- Puts a value under a key, through so many stand-ins at most. -/
def setIndexFrom (c : Context) (key value : Datum) : Nat → Option Label → Datum → Run Unit
  | 0, _, _ => c.fail (utf8 "'__newindex' chain too long; possibly a loop")
  | fuel + 1, label, object => do
      let owner ← match object with
        | .table id =>
            if !((← Run.table id).get key).isNil then return ← c.rawSet id key value
            pure (some id)
        | _ => pure none
      let standing ← handler "newindex" object
      if standing.isNil then
        match owner with
        | some id => c.rawSet id key value
        | none => c.failType "index" object label
      else if standing.isFunction then
        let _ ← c.standIn "newindex" standing [object, key, value]
      else setIndexFrom c key value fuel none standing

/-- Puts a value under a key. -/
def setIndex (c : Context) (label : Option Label) (object key value : Datum) : Run Unit :=
  setIndexFrom c key value chainLimit label object

/-- Two operands, and what messages call them. -/
structure Operands where
  left : Datum
  right : Datum
  leftLabel : Option Label
  rightLabel : Option Label

/-- Fails because numbers have no result. -/
def failNumber (c : Context) (fault : NumberFault) (o : Operands) : Run Datum :=
  match fault with
  | .divisionByZero => c.fail (utf8 "attempt to divide by zero")
  | .remainderByZero => c.fail (utf8 "attempt to perform 'n%%0'")
  | .notInteger =>
      let label := if o.left.exactInteger?.isNone then o.leftLabel else o.rightLabel
      c.fail (utf8 "number" ++ labelText label ++ utf8 " has no integer representation")

/-- Fails at the first operand that is not a number. -/
def failOperand (c : Context) (action : String) (o : Operands) : Run Datum :=
  if o.left.isNumber then c.failType action o.right o.rightLabel
  else c.failType action o.left o.leftLabel

/-- An operation on strings that spell numbers. -/
def onTexts (c : Context) (op : BinaryOp) (o : Operands) : Run Datum := do
  match o.left.asNumber?.bind fun a => o.right.asNumber?.bind fun b => op.onNumbers? a b with
  | some (.ok result) => return result
  | some (.error fault) => c.failNumber fault o
  | none =>
      let standing ← if o.right.isString then pure .nil else handler op.event o.right
      if standing.isNil then c.failType "perform arithmetic on" o.left none
      else c.standIn op.event standing [o.left, o.right]

/-- An operation on two numbers, or what stands in for it. -/
def arithmetic (c : Context) (op : BinaryOp) (o : Operands) : Run Datum := do
  match op.onNumbers? o.left o.right with
  | some (.ok result) => return result
  | some (.error fault) => c.failNumber fault o
  | none =>
      let first ← handler op.event o.left
      let args := [o.left, o.right]
      if !first.isNil then c.standIn op.event first args
      else if o.left.isString && !op.isBitwise then c.onTexts op o
      else
        let second ← handler op.event o.right
        if !second.isNil then c.standIn op.event second args
        else if o.right.isString && !op.isBitwise then c.onTexts op o
        else if op.isBitwise then c.failOperand "perform bitwise operation on" o
        else c.failOperand "perform arithmetic on" o

/-- The negative of a value. -/
def negative (c : Context) (label : Option Label) (value : Datum) : Run Datum := do
  match value.asNumber?.bind Datum.negated? with
  | some result => return result
  | none =>
      let standing ← handler "unm" value
      if !standing.isNil then c.standIn "unm" standing [value, value]
      else c.failType "perform arithmetic on" value (if value.isString then none else label)

/-- The inverted bits of a value. -/
def inverted (c : Context) (label : Option Label) (value : Datum) : Run Datum := do
  match value.exactInteger? with
  | some n => return .integer (~~~(bitsOf n)).toInt
  | none =>
      let standing ← handler "bnot" value
      if !standing.isNil then c.standIn "bnot" standing [value, value]
      else if value.isNumber then c.failNumber .notInteger ⟨value, value, label, label⟩
      else c.failType "perform bitwise operation on" value label

/-- Two texts or numbers as one text, or what stands in for that. -/
def concatenate (c : Context) (o : Operands) : Run Datum := do
  match o.left.asText?, o.right.asText? with
  | some a, some b => return .string (a ++ b)
  | left, _ =>
      let standing ← handlerOf "concat" o.left o.right
      if !standing.isNil then c.standIn "concat" standing [o.left, o.right]
      else if left.isSome then c.failType "concatenate" o.right o.rightLabel
      else c.failType "concatenate" o.left o.leftLabel

/-- The length of a text or a table, or what stands in for it. -/
def length (c : Context) (label : Option Label) (value : Datum) : Run Datum := do
  match value with
  | .string bytes => return .integer bytes.length
  | _ =>
      let standing ← handler "len" value
      if !standing.isNil then c.standIn "len" standing [value, value]
      else
        match value with
        | .table id => return .integer (← Run.table id).length
        | _ => c.failType "get length of" value label

/-- Fails because two values have no order. -/
def failOrder {α : Type} (c : Context) (a b : Datum) : Run α := do
  let first ← Run.typeName a
  let second ← Run.typeName b
  if first = second then c.fail (utf8 "attempt to compare two " ++ first ++ utf8 " values")
  else c.fail (utf8 "attempt to compare " ++ first ++ utf8 " with " ++ second)

/-- What stands in for a comparison, as a truth value. -/
def compareBy (c : Context) (event : String) (a b : Datum) : Run Bool := do
  let standing ← handlerOf event a b
  if standing.isNil then c.failOrder a b
  else return (← c.standIn event standing [a, b]).truthy

def less (c : Context) (a b : Datum) : Run Bool :=
  match a, b with
  | .string x, .string y => return bytesLess x y
  | _, _ =>
      match Datum.numberLess? a b with
      | some result => return result
      | none => c.compareBy "lt" a b

def lessEqual (c : Context) (a b : Datum) : Run Bool :=
  match a, b with
  | .string x, .string y => return !bytesLess y x
  | _, _ =>
      match Datum.numberLessEqual? a b with
      | some result => return result
      | none => c.compareBy "le" a b

/-- Equality; of two tables the metatables have a say. -/
def equal (c : Context) (a b : Datum) : Run Bool := do
  if a.rawEqual b then return true
  match a, b with
  | .table _, .table _ =>
      let standing ← handlerOf "eq" a b
      if standing.isNil then return false
      else return (← c.standIn "eq" standing [a, b]).truthy
  | _, _ => return false

/-- An operation on two values. -/
def binary (c : Context) (op : BinaryOp) (o : Operands) : Run Datum :=
  match op with
  | .concat => c.concatenate o
  | .eq => return .bool (← c.equal o.left o.right)
  | .ne => return .bool !(← c.equal o.left o.right)
  | .lt => return .bool (← c.less o.left o.right)
  | .le => return .bool (← c.lessEqual o.left o.right)
  | .gt => return .bool (← c.less o.right o.left)
  | .ge => return .bool (← c.lessEqual o.right o.left)
  | _ => c.arithmetic op o

def unary (c : Context) (op : UnaryOp) (label : Option Label) (value : Datum) : Run Datum :=
  match op with
  | .neg => c.negative label value
  | .bnot => c.inverted label value
  | .not => return .bool !value.truthy
  | .len => c.length label value

/-- A text that tells values without a text of their own apart. -/
def addressOf : Datum → Nat
  | .table id => 16 * id + 1
  | .closure id => 16 * id + 2
  | .thread id => 16 * id + 3
  | _ => 4

/-- The text that tells a value apart. -/
def addressText (value : Datum) : Bytes :=
  utf8 "0x" ++ ascii (Nat.toDigits 16 (0x555500000000 + 16 * addressOf value))

/-- The text of a value. -/
def textOf (c : Context) (value : Datum) : Run Bytes := do
  let standing ← handler "tostring" value
  if !standing.isNil then
    match (← c.standIn "tostring" standing [value]).asText? with
    | some text => return text
    | none =>
        Run.raise (.string (positionText (c.sites.head?.bind Site.line) ++
          utf8 "'__tostring' must return a string"))
  else
    match value, value.asText? with
    | _, some text => return text
    | .nil, _ => return utf8 "nil"
    | .bool b, _ => return utf8 (if b then "true" else "false")
    | _, _ => return (← Run.typeName value) ++ utf8 ": " ++ addressText value

end Context

end ScriptHost.Script
