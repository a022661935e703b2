import ScriptHost.Wire

set_option autoImplicit false

namespace ScriptHost.Engine

/-- What can go wrong with a call into the engine. -/
inductive CallError where
  | unsupportedType (ty : Ty)
  | badTableIndex (keyType : String)
  | unhandledReturnType (typeName : String)
  | recursiveTable
  | missingReturnValue
  | notAFunction
  | engine (text : String)
  | wire (error : Wire.Error)
deriving DecidableEq, Repr

namespace CallError

def message : CallError → String
  | unsupportedType ty => "unsupported parameter type " ++ ty.describe
  | badTableIndex keyType => "bad table index: " ++ keyType ++ " keys are not supported"
  | unhandledReturnType typeName => "unhandled return type " ++ typeName
  | recursiveTable => "unhandled return type: table contains itself"
  | missingReturnValue => "none value should not be returned"
  | notAFunction => "missing or invalid \"return <function>\" at end of input"
  | engine text => text
  | wire error => error.message

def kind : CallError → ErrorKind
  | unsupportedType _ => .unsupportedType
  | badTableIndex _ => .badTableIndex
  | unhandledReturnType _ | recursiveTable => .unhandledReturnType
  | missingReturnValue => .missingReturnValue
  | notAFunction => .notAFunction
  | engine _ => .engine
  | wire error => error.kind

/-- The failure as the caller of a function sees it. -/
def toFunctionError (e : CallError) : FunctionError := .ofText e.kind e.message

end CallError

end ScriptHost.Engine
