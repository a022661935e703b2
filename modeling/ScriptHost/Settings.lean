import ScriptHost.Files
import ScriptHost.Settings.Toml

set_option autoImplicit false

namespace ScriptHost

/-- The source may be given in two ways, of which one must be used. The path of a file is taken from
the folder of the settings. -/
structure Settings where
  port : Nat
  bind : String
  source? : Option String
  file? : Option String
  folder : String
deriving DecidableEq, Repr

namespace Settings

/-- Why there are no settings, or no source in them. -/
inductive Fault where
  | read (path : String) (fault : FileFault)
  | parse (path : String)
  | noSource
  | twoSources
  | file (path : String) (fault : FileFault)
deriving DecidableEq, Repr

/-- What was at fault. -/
def Fault.context : Fault → String
  | read _ _ => "read"
  | parse _ => "parse"
  | noSource | twoSources => "lua"
  | file _ _ => "lua_file"

/-- A path and what is wrong with the file there. -/
def fileDetail (path detail : String) : String := "'" ++ path ++ "': " ++ detail

def Fault.detail : Fault → String
  | read path fault | file path fault => fileDetail path fault.message
  | parse path => fileDetail path "these are no settings"
  | noSource => "one of `lua` or `lua_file` is required"
  | twoSources => "set either `lua` or `lua_file`, not both"

def Fault.message (fault : Fault) : String :=
  "config (" ++ fault.context ++ "): " ++ fault.detail

/-- The settings of a folder where nothing is set. -/
def ofFolder (folder : String) : Settings := ⟨9300, "127.0.0.1", none, none, folder⟩

/-- Sets what a name stands for. There are no other names. -/
def set? (settings : Settings) : String × Toml.Scalar → Option Settings
  | ("api_port", .integer n) =>
      if 0 ≤ n ∧ n < 65536 then some { settings with port := n.toNat } else none
  | ("bind", .string text) => some { settings with bind := text }
  | ("lua", .string text) => some { settings with source? := some text }
  | ("lua_file", .string text) => some { settings with file? := some text }
  | _ => none

/-- Reads settings from their text. -/
def ofText? (folder text : String) : Option Settings :=
  (Toml.parse? text).bind fun entries => entries.foldlM set? (ofFolder folder)

variable {m : Type → Type} [Monad m]

/-- Reads settings from a file. -/
def load (read : FileReader m) (path : String) : m (Except Fault Settings) := do
  match ← read path with
  | .error fault => return .error (.read path fault)
  | .ok text =>
      match ofText? (FilePath.parent path) text with
      | none => return .error (.parse path)
      | some settings => return .ok settings

/-- The source of the functions. -/
def source (read : FileReader m) (settings : Settings) : m (Except Fault String) :=
  match settings.source?, settings.file? with
  | some text, none => return .ok text
  | none, some file => do
      let path := FilePath.join settings.folder file
      return (← read path).mapError (.file path)
  | some _, some _ => return .error .twoSources
  | none, none => return .error .noSource

end Settings

end ScriptHost
