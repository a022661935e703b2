import ScriptHost.Number.Binary64
import ScriptHost.Script.Builtin
import ScriptHost.Text.Utf8

set_option autoImplicit false

namespace ScriptHost.Script

/-- The text of a script value, or of a message: any bytes. -/
abbrev Bytes := List UInt8

/-- The values that scripts compute with. Tables, functions of scripts, files and threads are known
by an identity, under which a heap keeps what they hold. -/
inductive Datum where
  | nil
  | bool (value : Bool)
  | integer (value : Int)
  | float (value : Binary64)
  | string (bytes : Bytes)
  | table (id : Nat)
  | closure (id : Nat)
  | builtin (f : Builtin)
  | file
  | thread (id : Nat)
deriving DecidableEq, Inhabited, Repr

namespace Datum

/-- A string from text. -/
def text (s : String) : Datum := string (utf8 s)

/-- Everything but nil and false counts as true. -/
def truthy : Datum → Bool
  | nil | bool false => false
  | _ => true

def isNil : Datum → Bool
  | nil => true
  | _ => false

def typeName : Datum → String
  | nil => "nil"
  | bool _ => "boolean"
  | integer _ | float _ => "number"
  | string _ => "string"
  | table _ => "table"
  | closure _ | builtin _ => "function"
  | file => "userdata"
  | thread _ => "thread"

def isNumber : Datum → Bool
  | integer _ | float _ => true
  | _ => false

def isFunction : Datum → Bool
  | closure _ | builtin _ => true
  | _ => false

end Datum

/-- An integer modulo the range of signed words. -/
def wrap (n : Int) : Int := Int.bmod n 0x10000000000000000

end ScriptHost.Script
