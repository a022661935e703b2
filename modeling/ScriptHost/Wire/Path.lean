set_option autoImplicit false

namespace ScriptHost.Wire

/-- One step into a container: to an element or to an entry. -/
inductive Step where
  | index (position : Nat)
  | name (key : String)
deriving DecidableEq, Repr

def Step.text : Step → String
  | index position => "[" ++ toString position ++ "]"
  | name key => "." ++ key

def pathText (path : List Step) : String := String.join (path.map Step.text)

/-- A cause, and the way to the part that it concerns. -/
structure Located (ε : Type) where
  path : List Step
  cause : ε

variable {ε α : Type}

/-- Fails where it stands. -/
def refuse (cause : ε) : Except (Located ε) α := .error ⟨[], cause⟩

/-- Notes that a failure lies below a step. -/
def under (step : Step) : Except (Located ε) α → Except (Located ε) α
  | .error failure => .error { failure with path := step :: failure.path }
  | .ok result => .ok result

/-- The results of elements in order, or the first failure below its position. -/
def collect (position : Nat) : List (Except (Located ε) α) → Except (Located ε) (List α)
  | [] => .ok []
  | outcome :: rest =>
      match under (.index position) outcome with
      | .error failure => .error failure
      | .ok result => (collect (position + 1) rest).map (result :: ·)

/-- The results of entries in order, or the first failure below its key. -/
def collectNamed : List (String × Except (Located ε) α) → Except (Located ε) (List (String × α))
  | [] => .ok []
  | (key, outcome) :: rest =>
      match under (.name key) outcome with
      | .error failure => .error failure
      | .ok result => (collectNamed rest).map ((key, result) :: ·)

end ScriptHost.Wire
