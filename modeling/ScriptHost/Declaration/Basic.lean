import ScriptHost.Ty.Basic

set_option autoImplicit false

namespace ScriptHost

structure Parameter where
  name : String
  ty : Ty
  allowNull : Bool
deriving DecidableEq, Inhabited, Repr

/-- The same parameter, with null allowed. -/
def Parameter.nullable (p : Parameter) : Parameter := { p with allowNull := true }

/-- The signature of a function. Arguments past the positional parameters belong to the variadic
one; without it they are errors. -/
structure Signature where
  parameters : List Parameter
  variadic : Option Parameter
  returnType : Ty
  summary : String
deriving DecidableEq, Inhabited, Repr

namespace Signature

/-- Any arguments to any result. -/
def variadicDynamic (summary : String) : Signature :=
  ⟨[], some ⟨"args", .dynamic, true⟩, .dynamic, summary⟩

def withParameter (s : Signature) (p : Parameter) : Signature :=
  { s with parameters := s.parameters ++ [p] }

/-- The parameter that the argument at a position belongs to. -/
def parameterFor? (s : Signature) (position : Nat) : Option Parameter :=
  match s.parameters[position]? with
  | some p => some p
  | none => s.variadic

end Signature

/-- An attribute of a configuration. -/
structure Attribute where
  name : String
  ty : Ty
  required : Bool
  description : String
deriving DecidableEq, Inhabited, Repr

/-- The attributes of a configuration. -/
structure Schema where
  attributes : List Attribute
deriving DecidableEq, Inhabited, Repr

inductive Severity where
  | error
  | warning
deriving DecidableEq, Inhabited, Repr

def Severity.name : Severity → String
  | error => "error"
  | warning => "warning"

/-- Feedback on a configuration. -/
structure Diagnostic where
  severity : Severity
  summary : String
  detail : String
deriving DecidableEq, Inhabited, Repr

namespace Diagnostic

def ofError (summary detail : String) : Diagnostic := ⟨.error, summary, detail⟩

def ofWarning (summary detail : String) : Diagnostic := ⟨.warning, summary, detail⟩

def isError (d : Diagnostic) : Bool := d.severity == .error

end Diagnostic

end ScriptHost
