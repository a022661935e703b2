import ScriptHost.Script.Operation

set_option autoImplicit false

namespace ScriptHost.Script

/-- A call of a function that is in place. -/
structure Activation where
  context : Context
  builtin : Builtin
  args : List Datum

namespace Activation

/-- Where the function was called. -/
def site (a : Activation) : Site := a.context.sites.headD ⟨none, none⟩

/-- Fails at the place of the call. -/
def fail {α : Type} (a : Activation) (message : Bytes) : Run α :=
  Run.raise (.string (positionText a.site.line ++ message))

/-- Fails because of an argument, counted from one. The object of a method call does not count. -/
def badArgument {α : Type} (a : Activation) (n : Nat) (message : Bytes) : Run α :=
  let about (n : Nat) (name : Bytes) : Bytes :=
    utf8 ("bad argument #" ++ toString n ++ " to '") ++ name ++ utf8 "' (" ++ message ++ utf8 ")"
  match a.site.callee with
  | some ⟨"method", name⟩ =>
      if n = 1 then
        a.fail (utf8 "calling '" ++ name ++ utf8 "' on bad self (" ++ message ++ utf8 ")")
      else a.fail (about (n - 1) name)
  | some ⟨_, name⟩ => a.fail (about n name)
  | none => a.fail (about n (utf8 (a.builtin.fullName?.getD "?")))

/-- An argument, counted from one; none if it was not given. -/
def arg? (a : Activation) (n : Nat) : Option Datum := a.args[n - 1]?

/-- An argument, nil if it was not given. -/
def arg (a : Activation) (n : Nat) : Datum := (a.arg? n).getD .nil

/-- Fails because an argument has the wrong type. -/
def wrongType {α : Type} (a : Activation) (n : Nat) (expected : String) : Run α := do
  let found ← match a.arg? n with
    | some value => Run.typeName value
    | none => pure (utf8 "no value")
  a.badArgument n (utf8 (expected ++ " expected, got ") ++ found)

/-- An argument that must be given. -/
def any (a : Activation) (n : Nat) : Run Datum :=
  match a.arg? n with
  | some value => return value
  | none => a.badArgument n (utf8 "value expected")

/-- An argument that must be a table. -/
def table (a : Activation) (n : Nat) : Run Nat :=
  match a.arg n with
  | .table id => return id
  | _ => a.wrongType n "table"

/-- An argument that must be a number, or spell one. -/
def number (a : Activation) (n : Nat) : Run Datum :=
  match (a.arg n).asNumber? with
  | some value => return value
  | none => a.wrongType n "number"

def float (a : Activation) (n : Nat) : Run Binary64 :=
  return ((← a.number n).asFloat?).getD .zero

/-- An argument that must be equal to an integer, or spell one that is. -/
def integer (a : Activation) (n : Nat) : Run Int := do
  match (← a.number n).exactInteger? with
  | some value => return value
  | none => a.badArgument n (utf8 "number has no integer representation")

/-- An integer argument, or a default if it is absent or nil. -/
def integerOr (a : Activation) (n : Nat) (default : Int) : Run Int :=
  if (a.arg n).isNil then return default else a.integer n

/-- An argument that must be a string or a number. -/
def text (a : Activation) (n : Nat) : Run Bytes :=
  match (a.arg n).asText? with
  | some bytes => return bytes
  | none => a.wrongType n "string"

def textOr (a : Activation) (n : Nat) (default : Bytes) : Run Bytes :=
  if (a.arg n).isNil then return default else a.text n

/-- The length of a value, which must be an integer. -/
def length (a : Activation) (value : Datum) : Run Int := do
  match (← a.context.length none value).exactInteger? with
  | some n => return n
  | none => a.fail (utf8 "object length is not an integer")

/-- Calls a function for the function in place. -/
def invoke (a : Activation) (f : Datum) (args : List Datum) : Run (List Datum) :=
  a.context.invoke none f args

/-- The value under an integer key. -/
def index (a : Activation) (object : Datum) (n : Int) : Run Datum :=
  a.context.index none object (.integer n)

def setIndex (a : Activation) (object : Datum) (n : Int) (value : Datum) : Run Unit :=
  a.context.setIndex none object (.integer n) value

end Activation

end ScriptHost.Script
