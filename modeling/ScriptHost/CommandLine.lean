set_option autoImplicit false

namespace ScriptHost

/-- What is to be done. The path of the settings may be left open. -/
inductive Command where
  | serve (settings : Option String)
  | functions (settings : Option String)
  | call (settings : Option String) (name : String) (arguments : List String)
  | exec (file : String) (arguments : List String)
deriving DecidableEq, Repr

/-- Why some words are not a command; help that was asked for counts as well. -/
inductive Usage where
  | unknownArgument
  | missingRequiredArgument
  | invalidSubcommand
  | invalidValue
  | tooManyValues
  | argumentConflict
  | displayHelp
  | displayHelpOnMissing
deriving DecidableEq, Repr

namespace CommandLine

/-- The first word of a command. -/
inductive Verb where
  | serve
  | functions
  | call
  | exec
deriving DecidableEq, Repr

namespace Verb

def ofName? : String → Option Verb
  | "serve" => some serve
  | "functions" => some functions
  | "call" => some call
  | "exec" => some exec
  | _ => none

/-- Whether the path of the settings can be given. -/
def takesSettings : Verb → Bool
  | serve | functions | call => true
  | exec => false

/-- Whether a name or a file is to be given, and arguments for it. -/
def takesOperands : Verb → Bool
  | serve | functions => false
  | call | exec => true

/-- Whether the first operand is a path, which is not empty. -/
def takesPath : Verb → Bool
  | exec => true
  | serve | functions | call => false

end Verb

/-- How a word looks. -/
inductive Word where
  /-- Two dashes: only operands follow. -/
  | escape
  /-- Two dashes and a name, perhaps with an equals sign and a value. -/
  | long (name : String) (value : Option String)
  /-- A dash and letters, of which the first one is given. -/
  | short (letter : Char)
  | plain (text : String)
deriving DecidableEq, Repr

/-- The name and the value of a long option. -/
def longWord (text : List Char) : Word :=
  let name := String.ofList (text.takeWhile (· ≠ '='))
  match text.dropWhile (· ≠ '=') with
  | _ :: value => .long name (some (String.ofList value))
  | [] => .long name none

def Word.ofText (text : String) : Word :=
  match text.toList with
  | ['-', '-'] => .escape
  | '-' :: '-' :: rest => longWord rest
  | '-' :: letter :: _ => .short letter
  | _ => .plain text

/-- What the words behind a verb have given so far, the last operand first. -/
structure Scan where
  settings : Option String
  operands : List String
  /-- Whether the last word asked for the path of the settings. -/
  awaiting : Bool
  /-- A fault of the last option or operand, not noticed yet. -/
  deferred : Option Usage
deriving DecidableEq, Repr

namespace Scan

def empty : Scan := ⟨none, [], false, none⟩

/-- Notices the fault of the last option or operand. -/
def settle (scan : Scan) : Except Usage Scan :=
  match scan.deferred with
  | some fault => .error fault
  | none => .ok scan

/-- Takes the path of the settings, which can be given once. -/
def setSettings (scan : Scan) (path : String) : Scan :=
  { scan with
    settings := some path
    awaiting := false
    deferred := if scan.settings.isSome then some .argumentConflict else none }

/-- Asks for the path of the settings. -/
def awaitSettings (scan : Scan) : Scan :=
  { scan with awaiting := true, deferred := some .invalidValue }

/-- Takes an operand. -/
def addOperand (verb : Verb) (scan : Scan) (text : String) : Except Usage Scan :=
  if verb.takesOperands then
    scan.settle.map fun scan =>
      { scan with
        operands := text :: scan.operands
        awaiting := false
        deferred := if verb.takesPath && scan.operands.isEmpty && text = "" then some .invalidValue
          else none }
  else .error .unknownArgument

/-- Takes a long option. -/
def addLong (verb : Verb) (scan : Scan) (name : String) (value : Option String) :
    Except Usage Scan :=
  if name = "help" then
    if value.isSome then .error .tooManyValues else scan.settle.bind fun _ => .error .displayHelp
  else if name = "config" && verb.takesSettings then
    match value with
    | none => scan.settle.map awaitSettings
    | some path => (scan.settle.map (·.setSettings path)).bind settle
  else .error .unknownArgument

/-- Takes a word. -/
def addWord (verb : Verb) (scan : Scan) (text : String) : Except Usage Scan :=
  match Word.ofText text with
  | .long name value => scan.addLong verb name value
  | .short letter => if letter = 'h' then scan.settle.bind fun _ => .error .displayHelp
      else .error .unknownArgument
  | _ => if scan.awaiting then .ok (scan.setSettings text) else scan.addOperand verb text

/-- Takes the words up to the end; behind two dashes all of them are operands. -/
def addWords (verb : Verb) : Scan → List String → Except Usage Scan
  | scan, [] => .ok scan
  | scan, text :: rest =>
      if Word.ofText text = .escape then rest.foldlM (addOperand verb) scan
      else
        match scan.addWord verb text with
        | .ok scan => addWords verb scan rest
        | .error fault => .error fault

/-- The command that a verb and all words behind it give. -/
def command (verb : Verb) (scan : Scan) : Except Usage Command :=
  scan.settle.bind fun scan =>
    match verb, scan.operands.reverse with
    | .serve, _ => .ok (.serve scan.settings)
    | .functions, _ => .ok (.functions scan.settings)
    | _, [] => .error .missingRequiredArgument
    | .call, name :: arguments => .ok (.call scan.settings name arguments)
    | .exec, file :: arguments => .ok (.exec file arguments)

end Scan

/-- The answer to words that ask for help: at most one command can be named. -/
def helpAbout : List String → Usage
  | [] => .displayHelp
  | [name] =>
      if (Verb.ofName? name).isSome || name = "help" then .displayHelp else .invalidSubcommand
  | _ => .invalidSubcommand

/-- The command that the words of a command line give. -/
def parse : List String → Except Usage Command
  | [] => .error .displayHelpOnMissing
  | text :: rest =>
      match Verb.ofName? text, Word.ofText text with
      | some verb, _ => (Scan.empty.addWords verb rest).bind (·.command verb)
      | none, .escape =>
          .error <| match rest with
            | [] => .displayHelpOnMissing
            | name :: _ =>
                if (Verb.ofName? name).isSome || name = "help" then .unknownArgument
                else .invalidSubcommand
      | none, .long name value =>
          .error <| if name ≠ "help" then .unknownArgument
            else if value.isSome then .tooManyValues else .displayHelp
      | none, .short letter => .error (if letter = 'h' then .displayHelp else .unknownArgument)
      | none, .plain name => .error (if name = "help" then helpAbout rest else .invalidSubcommand)

end CommandLine

end ScriptHost
