import ScriptHost.Script.Library.Argument

set_option autoImplicit false

namespace ScriptHost.Script.TableFunction

/-- A sequence argument and its length. A value that is no table must have stand-ins for its parts.
-/
def sequence (a : Activation) (n : Nat) (events : List String) : Run (Datum × Int) := do
  let value := a.arg n
  match value with
  | .table _ => pure ()
  | _ =>
      let standing ← events.mapM fun event => Context.handler event value
      if standing.any Datum.isNil then a.wrongType n "table"
  return (value, ← a.length value)

/-- The texts of the items from a position on, with a separator between them. -/
def joined (a : Activation) (object : Datum) (separator : Bytes) : Nat → Int → Run Bytes
  | 0, _ => return []
  | more + 1, n => do
      match (← a.index object n).asText? with
      | some text =>
          if more = 0 then return text
          else return text ++ separator ++ (← joined a object separator more (n + 1))
      | none =>
          a.fail (utf8 ("invalid value (at index " ++ toString n ++ ") in table for 'concat'"))

def concatenated (a : Activation) : Run (List Datum) := do
  let (object, length) ← sequence a 1 ["index", "len"]
  let separator ← a.textOr 2 []
  let first ← a.integerOr 3 1
  let last ← a.integerOr 4 length
  return [.string (← joined a object separator (last - first + 1).toNat first)]

/-- Moves items one position up, the last one first. -/
def shiftUp (a : Activation) (object : Datum) : Nat → Int → Run Unit
  | 0, _ => return ()
  | more + 1, n => do
      a.setIndex object n (← a.index object (n - 1))
      shiftUp a object more (n - 1)

/-- Moves items one position down, the first one first. -/
def shiftDown (a : Activation) (object : Datum) : Nat → Int → Run Unit
  | 0, _ => return ()
  | more + 1, n => do
      a.setIndex object n (← a.index object (n + 1))
      shiftDown a object more (n + 1)

def inserted (a : Activation) : Run (List Datum) := do
  let (object, length) ← sequence a 1 ["index", "newindex", "len"]
  let behind := wrap (length + 1)
  match a.args with
  | [_, value] => a.setIndex object behind value
  | [_, _, value] =>
      let n ← a.integer 2
      if n < 1 ∨ behind < n then a.badArgument 2 (utf8 "position out of bounds")
      shiftUp a object (behind - n).toNat behind
      a.setIndex object n value
  | _ => a.fail (utf8 "wrong number of arguments to 'insert'")
  return []

def removed (a : Activation) : Run (List Datum) := do
  let (object, length) ← sequence a 1 ["index", "newindex", "len"]
  let n ← a.integerOr 2 length
  if n != length ∧ (n < 1 ∨ length + 1 < n) then
    a.badArgument 2 (utf8 "position out of bounds")
  let value ← a.index object n
  shiftDown a object (length - n).toNat n
  a.setIndex object (max n length) .nil
  return [value]

def packed (a : Activation) : Run (List Datum) := do
  let t := (Table.ofList a.args).set (.text "n") (.integer a.args.length)
  return [← Run.newTable t]

/-- How many results a call can have. -/
def resultLimit : Nat := 1000000

/-- The items from a position on. -/
def itemsFrom (a : Activation) (object : Datum) : Nat → Int → Run (List Datum)
  | 0, _ => return []
  | more + 1, n => do
      let value ← a.index object n
      return value :: (← itemsFrom a object more (n + 1))

def unpacked (a : Activation) : Run (List Datum) := do
  let object := a.arg 1
  let first ← a.integerOr 2 1
  let last ← if (a.arg 3).isNil then a.length object else a.integer 3
  let count := (last - first + 1).toNat
  if resultLimit ≤ count then a.fail (utf8 "too many results to unpack")
  else itemsFrom a object count first

def run (f : TableFunction) (a : Activation) : Run (List Datum) :=
  match f with
  | concat => concatenated a
  | insert => inserted a
  | remove => removed a
  | pack => packed a
  | unpack => unpacked a

end ScriptHost.Script.TableFunction
