import ScriptHost.Text.Digit
import ScriptHost.Text.Utf8

set_option autoImplicit false

namespace ScriptHost

/-- What a path names. -/
inductive Endpoint where
  /-- The list of functions. -/
  | functions
  /-- What a configuration holds. -/
  | schema
  /-- The call of a function, named as in the path. -/
  | call (name : String)
deriving DecidableEq, Repr

namespace Endpoint

/-- What a path names, if it names anything. What follows a question mark or a number sign is not
part of the path. The name of a function may be empty: the router answers `/api/functions//call` as
the call of a function that is not known. -/
def ofPath? (path : String) : Option Endpoint :=
  match ((path.toList.takeWhile fun c => c ≠ '?' && c ≠ '#').splitOn '/').map String.ofList with
  | ["", "api", "functions"] => some functions
  | ["", "api", "schema"] => some schema
  | ["", "api", "functions", name, "call"] => some (call name)
  | _ => none

end Endpoint

/-- The bytes that the bytes of a path stand for: a percent sign and two hexadecimal digits are one
byte, and all else is itself. -/
def percentDecode : List UInt8 → List UInt8
  | [] => []
  | 37 :: a :: b :: rest =>
      match hexValue? a, hexValue? b with
      | some high, some low => UInt8.ofNat (16 * high + low) :: percentDecode rest
      | _, _ => 37 :: percentDecode (a :: b :: rest)
  | byte :: rest => byte :: percentDecode rest

/-- The text that a part of a path stands for, if it is one. -/
def pathText? (segment : String) : Option String := ofUtf8? (percentDecode (utf8 segment))

end ScriptHost
