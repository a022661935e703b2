import ScriptHost.Script.Datum

set_option autoImplicit false

namespace ScriptHost.Script

/-- What can be wrong with the text of a script. -/
inductive SyntaxFault where
  | unfinishedString
  | unfinishedLong (what : String) (line : Nat)
  | longDelimiter
  | malformedNumber
  | escapeSequence
  | hexDigitExpected
  | openBraceMissing
  | closeBraceMissing
  | codeTooLarge
  | decimalTooLarge
  | unexpectedSymbol
  | notAStatement
  | expected (token : String)
  | unclosed (token opener : String) (line : Nat)
  | parameterExpected
  | loopExpected
  | outsideVariadic
  | unknownAttribute (name : Bytes)
  | assignToConstant (name : Bytes)
  | breakOutsideLoop (line : Nat)
  | noLabel (name : Bytes) (line : Nat)
  | repeatedLabel (name : Bytes) (line : Nat)
  | jumpIntoScope (name : Bytes) (line : Nat) (hidden : Bytes)
  | nesting
deriving DecidableEq, Repr

def SyntaxFault.message : SyntaxFault → Bytes
  | unfinishedString => utf8 "unfinished string"
  | unfinishedLong what line =>
      utf8 ("unfinished long " ++ what ++ " (starting at line " ++ toString line ++ ")")
  | longDelimiter => utf8 "invalid long string delimiter"
  | malformedNumber => utf8 "malformed number"
  | escapeSequence => utf8 "invalid escape sequence"
  | hexDigitExpected => utf8 "hexadecimal digit expected"
  | openBraceMissing => utf8 "missing '\x7b'"
  | closeBraceMissing => utf8 "missing '\x7d'"
  | codeTooLarge => utf8 "UTF-8 value too large"
  | decimalTooLarge => utf8 "decimal escape too large"
  | unexpectedSymbol => utf8 "unexpected symbol"
  | notAStatement => utf8 "syntax error"
  | expected token => utf8 (token ++ " expected")
  | unclosed token opener line =>
      utf8 (token ++ " expected (to close " ++ opener ++ " at line " ++ toString line ++ ")")
  | parameterExpected => utf8 "<name> or '...' expected"
  | loopExpected => utf8 "'=' or 'in' expected"
  | outsideVariadic => utf8 "cannot use '...' outside a vararg function"
  | unknownAttribute name => utf8 "unknown attribute '" ++ name ++ utf8 "'"
  | assignToConstant name => utf8 "attempt to assign to const variable '" ++ name ++ utf8 "'"
  | breakOutsideLoop line => utf8 ("break outside a loop at line " ++ toString line)
  | noLabel name line =>
      utf8 "no visible label '" ++ name ++ utf8 ("' for <goto> at line " ++ toString line)
  | repeatedLabel name line =>
      utf8 "label '" ++ name ++ utf8 ("' already defined on line " ++ toString line)
  | jumpIntoScope name line hidden =>
      utf8 "<goto " ++ name ++ utf8 ("> at line " ++ toString line)
        ++ utf8 " jumps into the scope of local '" ++ hidden ++ utf8 "'"
  | nesting => utf8 "C stack overflow"

/-- The name under which a script is compiled, as positions show it. -/
def chunkName : String := "lua"

/-- A line of a script, before a message about it. -/
def position (line : Nat) : Bytes := utf8 (chunkName ++ ":" ++ toString line ++ ": ")

/-- A fault, the line of the token at which it shows, and the text of that token. -/
structure SyntaxError where
  fault : SyntaxFault
  line : Nat
  near : Option Bytes
deriving DecidableEq, Repr

def SyntaxError.message (e : SyntaxError) : Bytes :=
  position e.line ++ e.fault.message ++
    match e.near with
    | some token => utf8 " near " ++ token
    | none => []

end ScriptHost.Script
