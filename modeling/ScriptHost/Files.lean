import ScriptHost.Dict

set_option autoImplicit false

namespace ScriptHost

/-- Why a file cannot be read. -/
inductive FileFault where
  | notFound
  | notADirectory
  | isADirectory
  | other (message : String)
deriving DecidableEq, Repr

def FileFault.message : FileFault → String
  | notFound => "No such file or directory (os error 2)"
  | notADirectory => "Not a directory (os error 20)"
  | isADirectory => "Is a directory (os error 21)"
  | other message => message

/-- How a file is read, which may be an action. -/
abbrev FileReader (m : Type → Type) := String → m (Except FileFault String)

namespace FilePath

/-- The parts of a path between its slashes. -/
def segments (path : String) : List String := (path.toList.splitOn '/').map String.ofList

def isAbsolute (path : String) : Bool := path.toList.head? == some '/'

/-- Whether a part of a path stays where it is. -/
def isIdle (segment : String) : Bool := segment = "" || segment = "."

/-- Parts of a path without idle ones at their end; the first part is kept. -/
def dropIdleEnd : List String → List String
  | [] => []
  | first :: rest => first :: (rest.reverse.dropWhile isIdle).reverse

/-- The path of the folder that a file is in; for a file in the current folder it is empty. -/
def parent (path : String) : String :=
  match dropIdleEnd ((dropIdleEnd (segments path)).dropLast) with
  | [""] => if isAbsolute path then "/" else ""
  | parts => String.intercalate "/" parts

/-- A path taken from a folder. -/
def join (folder path : String) : String :=
  if isAbsolute path || folder = "" then path
  else if folder.toList.getLast? == some '/' then folder ++ path
  else folder ++ "/" ++ path

end FilePath

/-- A folder of files: the content of each by its path in the folder. -/
structure Folder where
  files : List (String × String)
deriving DecidableEq, Repr

namespace Folder

/-- What a path leads to. -/
inductive Node where
  | file (content : String)
  | directory (names : List String)
deriving DecidableEq, Repr

/-- What stands under some names in a folder. A directory is there if a file is in it. -/
def node? (folder : Folder) (names : List String) : Option Node :=
  match Dict.get? folder.files (String.intercalate "/" names) with
  | some content => some (.file content)
  | none =>
      if (Dict.keys folder.files).any fun path => names.isPrefixOf (FilePath.segments path) then
        some (.directory names)
      else none

/-- Goes one part of a path further. -/
def step (folder : Folder) : Node → String → Except FileFault Node
  | .file _, _ => .error .notADirectory
  | .directory names, segment =>
      if FilePath.isIdle segment then .ok (.directory names)
      else if segment = ".." then
        if names.isEmpty then .error .notFound else .ok (.directory names.dropLast)
      else
        match folder.node? (names ++ [segment]) with
        | some node => .ok node
        | none => .error .notFound

/-- The content of the file that a path from the folder leads to. Nothing outside of the folder is
found. -/
def read (folder : Folder) (path : String) : Except FileFault String :=
  if path = "" || FilePath.isAbsolute path then .error .notFound
  else
    match (FilePath.segments path).foldlM folder.step (.directory []) with
    | .error fault => .error fault
    | .ok (.file content) => .ok content
    | .ok (.directory _) => .error .isADirectory

end Folder

end ScriptHost
