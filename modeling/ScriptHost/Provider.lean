import ScriptHost.Declaration.Json
import ScriptHost.Discover
import ScriptHost.Engine.Call

set_option autoImplicit false

namespace ScriptHost

/-- How a function is run. -/
inductive FunctionBody where
  /-- By running its first argument as a source that returns a function, for the other ones. -/
  | exec
  /-- By calling a global function of a source. -/
  | global (source name : String)
deriving DecidableEq, Repr

structure ProvidedFunction where
  signature : Signature
  body : FunctionBody
deriving DecidableEq, Repr

/-- Why a call has no result. -/
inductive CallFailure where
  | function (error : FunctionError)
  | unknownFunction (name : String)
deriving DecidableEq, Repr

def CallFailure.message : CallFailure → String
  | function error => error.text
  | unknownFunction name => "unknown function " ++ name

/-- The functions of the configured source, by name. They give way to new ones whenever a source is
configured. -/
structure Provider where
  dynamics : List (String × ProvidedFunction)
deriving DecidableEq, Repr

namespace Provider

def empty : Provider := ⟨[]⟩

def execName : String := "exec"

def execFunction : ProvidedFunction :=
  ⟨(Signature.variadicDynamic
      "Run a Lua chunk that returns a function, passing it the remaining arguments").withParameter
      ⟨"code", .string, false⟩, .exec⟩

/-- The functions that are always there. -/
def statics : List (String × ProvidedFunction) := [(execName, execFunction)]

/-- What a configuration holds. -/
def schema : Schema :=
  ⟨[⟨"lua", .string, true, "Lua source whose global functions are exposed"⟩]⟩

/-- The names of the functions that are always there. -/
def metadata : List String := Dict.keys statics

/-- The function that a name calls. -/
def find? (p : Provider) (name : String) : Option ProvidedFunction :=
  (Dict.get? statics name).or (Dict.get? p.dynamics name)

/-- The functions by name; those that are always there come before others of their name. -/
def functions (p : Provider) : List (String × ProvidedFunction) :=
  statics.foldl (fun d f => Dict.insert f.1 f.2 d) p.dynamics

/-- The signatures of the functions, by name. -/
def functionsJson (p : Provider) : Json :=
  .object (p.functions.map fun f => (f.1, f.2.signature.toJson))

/-- A provider as diagnostic text. -/
def debugText (p : Provider) : String :=
  let names (d : List (String × ProvidedFunction)) : String := bracketed ((Dict.keys d).map quote)
  "Provider \x7b statics: " ++ names statics ++ ", dynamics: " ++ names p.dynamics ++ " \x7d"

/-- The function of a name that a source declares. -/
def ofDeclaration (source name : String) : ProvidedFunction :=
  ⟨.variadicDynamic ("Lua function " ++ name), .global source name⟩

/-- The provider of the functions that a source declares. -/
def ofSource (source : String) : Provider :=
  ⟨Dict.ofList ((discover source).map fun name => (name, ofDeclaration source name))⟩

/-- What is to be said about a source: nothing of it keeps it from being configured. -/
def review (source : String) : List Diagnostic :=
  (match Engine.checkSyntax source with
    | .error e => [.ofWarning "Lua source does not compile" e.message]
    | .ok () => []) ++
  if (discover source).isEmpty then
    [.ofWarning "No functions declared"
      "the source declares no global functions, only static functions are available"]
  else []

/-- Takes the functions of a source in place of those before. -/
def configureSource (_ : Provider) (source : String) : List Diagnostic × Provider :=
  (review source, ofSource source)

/-- The source that the value of a configuration holds. -/
def sourceOf? : Value → Option String
  | .map entries | .object entries => (Dict.get? entries "lua").bind Value.asString?
  | _ => none

/-- What is wrong with a payload that configures nothing. -/
def invalidPayload (detail : String) : List Diagnostic :=
  [.ofError "Invalid configure payload" detail]

/-- Takes the functions of the source that a payload holds, if it holds one. -/
def configure (p : Provider) (payload : Payload) : List Diagnostic × Provider :=
  match Wire.decode payload (.map .string) with
  | .error e => (invalidPayload e.message, p)
  | .ok value =>
      match sourceOf? value with
      | some source => p.configureSource source
      | none => (invalidPayload "attribute \"lua\" must be set to a string", p)

end Provider

namespace Signature

/-- The value of an argument at a position, under the parameter that it belongs to. -/
def bindArgument (s : Signature) (position : Nat) (payload : Payload) :
    Except FunctionError Value :=
  match s.parameterFor? position with
  | none => .error (.ofArgument position ("unexpected argument " ++ toString position))
  | some parameter =>
      match Wire.decode payload parameter.ty with
      | .error e => .error ((e.toFunctionError.withContext parameter.name).atArgument position)
      | .ok value =>
          if value.isNull && !parameter.allowNull then
            let text := "argument " ++ quote parameter.name ++ " must not be null"
            .error (.ofArgument position text)
          else .ok value

/-- The values of arguments from a position on, or the failure of the first that has none. -/
def bindFrom (s : Signature) (position : Nat) : List Payload → Except FunctionError (List Value)
  | [] => .ok []
  | payload :: rest =>
      match bindArgument s position payload with
      | .error e => .error e
      | .ok value => (bindFrom s (position + 1) rest).map (value :: ·)

/-- The values of the arguments of a call. -/
def bind (s : Signature) (args : List Payload) : Except FunctionError (List Value) :=
  if args.length < s.parameters.length then
    .error (.ofArgument args.length ("expected at least " ++ toString s.parameters.length ++
      " arguments, got " ++ toString args.length))
  else bindFrom s 0 args

end Signature

/-- Runs a body for values. -/
def FunctionBody.run : FunctionBody → List Value → Except FunctionError Value
  | .exec, [] => .error (.ofArgument 0 "missing argument \"code\"")
  | .exec, code :: rest =>
      match code.asString? with
      | none => .error (.ofArgument 0 "argument \"code\" must be a string")
      | some source => (Engine.callReturned source rest).mapError (·.toFunctionError)
  | .global source name, values =>
      (Engine.callGlobal source name values).mapError (·.toFunctionError)

/-- Runs a function for payloads, and gives its result as one. -/
def ProvidedFunction.run (f : ProvidedFunction) (args : List Payload) :
    Except FunctionError Payload :=
  match f.signature.bind args with
  | .error e => .error e
  | .ok values =>
      match f.body.run values with
      | .error e => .error e
      | .ok result => (Wire.encode result f.signature.returnType).mapError (·.toFunctionError)

/-- Calls the function of a name. -/
def Provider.call (p : Provider) (name : String) (args : List Payload) :
    Except CallFailure Payload :=
  match p.find? name with
  | none => .error (.unknownFunction name)
  | some f => (f.run args).mapError .function

end ScriptHost
