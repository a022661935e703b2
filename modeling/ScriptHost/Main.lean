import ScriptHost.Host

set_option autoImplicit false

namespace ScriptHost

def fileFault : IO.Error → FileFault
  | .noFileOrDirectory _ _ _ => .notFound
  | .inappropriateType _ _ _ => .isADirectory
  | e => .other (toString e)

/-- Reads a file of the system. -/
def readSystemFile : FileReader IO := fun path => do
  try
    return .ok (← IO.FS.readFile path)
  catch e =>
    return .error (fileFault e)

/-- The words that are shown for a fault of usage. -/
def usageText : Usage → String
  | .unknownArgument => "error: unexpected argument"
  | .missingRequiredArgument => "error: a required argument was not given"
  | .invalidSubcommand => "error: no such command"
  | .invalidValue => "error: a value is missing"
  | .tooManyValues => "error: unexpected value"
  | .argumentConflict => "error: an argument was given twice"
  | .displayHelp | .displayHelpOnMissing =>
      "usage: serve | functions | call NAME [ARGS] | exec FILE [ARGS]\n" ++
        "options: --config PATH (but not for exec), --help"

end ScriptHost

open ScriptHost in
def main (words : List String) : IO UInt32 := do
  match CommandLine.parse words with
  | .error .displayHelp =>
      IO.println (usageText .displayHelp)
      return 0
  | .error usage =>
      IO.eprintln (usageText usage)
      return 2
  | .ok command =>
      let standard := (← IO.getEnv "LUAFN_CONFIG").getD Host.settingsPath
      match ← Host.run readSystemFile standard command with
      | .ok shown =>
          IO.print shown
          return 0
      | .error e =>
          IO.eprintln ("Error: " ++ e.message)
          return 1
