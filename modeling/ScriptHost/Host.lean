import ScriptHost.CommandLine
import ScriptHost.Provider
import ScriptHost.Settings
import ScriptHost.Value.Plain

set_option autoImplicit false

namespace ScriptHost

/-- Why a command has nothing to show. -/
inductive HostError where
  | settings (fault : Settings.Fault)
  | configure (summary detail : String)
  | argument (position : Nat) (error : Json.ParseError)
  | call (failure : CallFailure)
  | wire (error : Wire.Error)
  | api (detail : String)
  | io (fault : FileFault)

def HostError.message : HostError → String
  | settings fault => fault.message
  | configure summary detail => "configure: " ++ summary ++ ": " ++ detail
  | argument position error => "argument " ++ toString position ++ ": " ++ error.message
  | call failure => failure.message
  | wire error => "wire: " ++ error.message
  | api detail => "api: " ++ detail
  | io fault => "io: " ++ fault.message

namespace Host

/-- The path of the settings, unless another one is given. -/
def settingsPath : String := "luafn.toml"

/-- The payload that configures a source. -/
def sourcePayload (source : String) : Except Wire.Error Payload :=
  Wire.encode (.map [("lua", .string source)]) (.map .string)

/-- The provider that a source configures, unless an error is found in it. -/
def configured (source : String) : Except HostError Provider :=
  match sourcePayload source with
  | .error e => .error (.wire e)
  | .ok payload =>
      match Provider.empty.configure payload with
      | (diagnostics, provider) =>
          match diagnostics.find? Diagnostic.isError with
          | some d => .error (.configure d.summary d.detail)
          | none => .ok provider

/-- The payload of an argument that is written as JSON. -/
def argument (position : Nat) (text : String) : Except HostError Payload :=
  match Json.parse (utf8 text) with
  | .error e => .error (.argument position e)
  | .ok document => (Wire.encode (Value.ofJson document) .dynamic).mapError .wire

/-- The payloads of arguments from a position on, or the failure of the first that has none. -/
def argumentsFrom (position : Nat) : List String → Except HostError (List Payload)
  | [] => .ok []
  | text :: rest =>
      match argument position text with
      | .error e => .error e
      | .ok payload => (argumentsFrom (position + 1) rest).map (payload :: ·)

/-- The payloads of arguments. -/
def arguments (texts : List String) : Except HostError (List Payload) := argumentsFrom 0 texts

/-- A document as it is shown. -/
def shown (document : Json) : String := document.linesText ++ "\n"

/-- The result of a call as it is shown. -/
def shownResult (result : Payload) : Except HostError String :=
  match Wire.decode result .dynamic with
  | .error e => .error (.wire e)
  | .ok value => .ok (shown value.toJson)

/-- Calls a function for arguments, and shows the result. -/
def called (provider : Provider) (name : String) (arguments : List Payload) :
    Except HostError String :=
  match provider.call name arguments with
  | .error failure => .error (.call failure)
  | .ok result => shownResult result

/-- Runs a source that returns a function, and shows the result. -/
def executed (source : String) (texts : List String) : Except HostError String :=
  match Wire.encode (.string source) .string, arguments texts with
  | .error e, _ => .error (.wire e)
  | .ok _, .error e => .error e
  | .ok code, .ok payloads => called .empty Provider.execName (code :: payloads)

variable {m : Type → Type} [Monad m]

/-- The provider that the settings at a path configure. -/
def loaded (read : FileReader m) (path : String) : m (Except HostError Provider) := do
  match ← Settings.load read path with
  | .error fault => return .error (.settings fault)
  | .ok settings =>
      match ← settings.source read with
      | .error fault => return .error (.settings fault)
      | .ok source => return configured source

/-- Does what a command says, and gives what is to be shown. Settings are at the standard path if
the command has none. -/
def run (read : FileReader m) (standard : String) : Command → m (Except HostError String)
  | .serve path => do
      match ← loaded read (path.getD standard) with
      | .error e => return .error e
      | .ok _ => return .error (.api "this host does not listen")
  | .functions path => do
      return (← loaded read (path.getD standard)).map fun provider => shown provider.functionsJson
  | .call path name texts => do
      match ← loaded read (path.getD standard) with
      | .error e => return .error e
      | .ok provider => return (arguments texts).bind (called provider name)
  | .exec file texts => do
      match ← read file with
      | .error fault => return .error (.io fault)
      | .ok source => return executed source texts

end Host

end ScriptHost
