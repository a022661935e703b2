import ScriptHost.Text.Word

set_option autoImplicit false

namespace ScriptHost

/-- A pattern prefers some of its matches to others: what may be left out is taken if that is
possible, and what repeats goes on as long as possible. -/
inductive Pattern where
  /-- Between a word character and what is none, or an end of the text. -/
  | boundary
  | literal (text : List Char)
  /-- One character of a class. -/
  | one (accepts : Char → Bool)
  /-- Any number of characters of a class. -/
  | many (accepts : Char → Bool)
  | both (first second : Pattern)
  | maybe (inner : Pattern)
  /-- Keeps what the inner pattern takes under a name. -/
  | group (name : String) (inner : Pattern)

namespace Pattern

/-- A match takes some characters and leaves the others; the group that was closed last comes first.
-/
structure Match where
  taken : List Char
  rest : List Char
  groups : List (String × List Char)
deriving DecidableEq, Repr

/-- What a group took, if it took part in the match. -/
def Match.group? (m : Match) (name : String) : Option (List Char) := m.groups.lookup name

def isWord (c : Option Char) : Bool := c.any isWordChar

/-- The ways to begin a text with characters of a class, the longest first. -/
def runs (accepts : Char → Bool) : List Char → List Match
  | [] => [⟨[], [], []⟩]
  | c :: s =>
      (if accepts c then (runs accepts s).map fun m => { m with taken := c :: m.taken } else []) ++
        [⟨[], c :: s, []⟩]

/-- The matches with which a text begins, the preferred first, given the character before the
text. -/
def matchesAt : Pattern → Option Char → List Char → List Match
  | boundary, before, s => if isWord before != isWord s.head? then [⟨[], s, []⟩] else []
  | literal text, _, s => if text.isPrefixOf s then [⟨text, s.drop text.length, []⟩] else []
  | one accepts, _, c :: s => if accepts c then [⟨[c], s, []⟩] else []
  | one _, _, [] => []
  | many accepts, _, s => runs accepts s
  | both first second, before, s =>
      (first.matchesAt before s).flatMap fun m =>
        (second.matchesAt (m.taken.getLast?.or before) m.rest).map fun n =>
          ⟨m.taken ++ n.taken, n.rest, n.groups ++ m.groups⟩
  | maybe inner, before, s => inner.matchesAt before s ++ [⟨[], s, []⟩]
  | group name inner, before, s =>
      (inner.matchesAt before s).map fun m => { m with groups := (name, m.taken) :: m.groups }

/-- The matches of a pattern in a text with the places where they begin. The text stands at a place
behind a character, and of its own characters the search leaves some out: those that belong to a
match already. Each match of the pattern takes at least one character. -/
def searchFrom (p : Pattern) (skip place : Nat) (before : Option Char) :
    List Char → List (Nat × Match)
  | [] => []
  | c :: s =>
      match skip with
      | skip + 1 => p.searchFrom skip (place + 1) (some c) s
      | 0 =>
          match (p.matchesAt before (c :: s)).head? with
          | some m => (place, m) :: p.searchFrom (m.taken.length - 1) (place + 1) (some c) s
          | none => p.searchFrom 0 (place + 1) (some c) s

/-- The matches of a pattern in a whole text, from left to right: at each place the preferred match
counts, and the search goes on where it ends. -/
def search (p : Pattern) (text : List Char) : List (Nat × Match) := p.searchFrom 0 0 none text

end Pattern

end ScriptHost
