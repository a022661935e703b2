set_option autoImplicit false

namespace ScriptHost.Script

/-- Functions that are global names of their own. -/
inductive BaseFunction where
  | print
  | type
  | tostring
  | tonumber
  | select
  | pairs
  | ipairs
  | ipairsStep
  | next
  | error
  | assert
  | pcall
  | xpcall
  | rawlen
  | rawequal
  | rawget
  | rawset
  | setmetatable
  | getmetatable
deriving DecidableEq, Repr

inductive MathFunction where
  | floor
  | ceil
  | abs
  | max
  | min
  | fmod
  | sqrt
  | tointeger
  | type
  | ult
deriving DecidableEq, Repr

inductive StringFunction where
  | rep
  | char
  | byte
  | sub
  | upper
  | lower
  | reverse
  | len
  | format
deriving DecidableEq, Repr

inductive TableFunction where
  | concat
  | insert
  | remove
  | pack
  | unpack
deriving DecidableEq, Repr

inductive CoroutineFunction where
  | create
deriving DecidableEq, Repr

/-- A function that is not written in a script. -/
inductive Builtin where
  | base (f : BaseFunction)
  | math (f : MathFunction)
  | string (f : StringFunction)
  | table (f : TableFunction)
  | coroutine (f : CoroutineFunction)
deriving DecidableEq, Repr

namespace BaseFunction

/-- The functions under their global names; the step of `ipairs` has none. -/
def named : List (String × BaseFunction) :=
  [("print", print), ("type", type), ("tostring", tostring), ("tonumber", tonumber),
    ("select", select), ("pairs", pairs), ("ipairs", ipairs), ("next", next), ("error", error),
    ("assert", assert), ("pcall", pcall), ("xpcall", xpcall), ("rawlen", rawlen),
    ("rawequal", rawequal), ("rawget", rawget), ("rawset", rawset),
    ("setmetatable", setmetatable), ("getmetatable", getmetatable)]

end BaseFunction

namespace MathFunction

def named : List (String × MathFunction) :=
  [("floor", floor), ("ceil", ceil), ("abs", abs), ("max", max), ("min", min), ("fmod", fmod),
    ("sqrt", sqrt), ("tointeger", tointeger), ("type", type), ("ult", ult)]

end MathFunction

namespace StringFunction

def named : List (String × StringFunction) :=
  [("rep", rep), ("char", char), ("byte", byte), ("sub", sub), ("upper", upper),
    ("lower", lower), ("reverse", reverse), ("len", len), ("format", format)]

end StringFunction

namespace TableFunction

def named : List (String × TableFunction) :=
  [("concat", concat), ("insert", insert), ("remove", remove), ("pack", pack),
    ("unpack", unpack)]

end TableFunction

namespace CoroutineFunction

def named : List (String × CoroutineFunction) := [("create", create)]

end CoroutineFunction

/-- The name of a value in a list of named values. -/
def nameIn? {α : Type} [BEq α] (named : List (String × α)) (f : α) : Option String :=
  (named.find? (·.2 == f)).map Prod.fst

/-- The full name by which messages call a function that no script calls by a name of its own. -/
def Builtin.fullName? : Builtin → Option String
  | base f => nameIn? BaseFunction.named f
  | math f => (nameIn? MathFunction.named f).map ("math." ++ ·)
  | string f => (nameIn? StringFunction.named f).map ("string." ++ ·)
  | table f => (nameIn? TableFunction.named f).map ("table." ++ ·)
  | coroutine f => (nameIn? CoroutineFunction.named f).map ("coroutine." ++ ·)

end ScriptHost.Script
