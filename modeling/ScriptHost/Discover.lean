import ScriptHost.Text.Blank
import ScriptHost.Text.Pattern

set_option autoImplicit false

namespace ScriptHost.Discover

open Pattern (boundary literal one many both maybe group)

def isNameStart (c : Char) : Bool :=
  ('A' ≤ c && c ≤ 'Z') || ('a' ≤ c && c ≤ 'z') || c == '_'

def isNameChar (c : Char) : Bool := isNameStart c || c.isDigit

theorem lt_of_isNameChar {c : Char} (plain : isNameChar c = true) : c.toNat < 128 := by
  simp only [isNameChar, isNameStart, Char.isDigit, Char.le_def, UInt32.le_iff_toNat_le, ge_iff_le,
    Bool.or_eq_true, Bool.and_eq_true, decide_eq_true_eq, beq_iff_eq] at plain
  have code : c.toNat = c.val.toNat := rfl
  rcases plain with ((upper | lower) | rfl) | digit
  · have last : ('Z' : Char).val.toNat = 90 := rfl
    omega
  · have last : ('z' : Char).val.toNat = 122 := rfl
    omega
  · decide
  · have last : ('9' : Char).val.toNat = 57 := rfl
    omega

theorem ne_of_isNameChar {c mark : Char} (plain : isNameChar c = true)
    (special : isNameChar mark = false) : c ≠ mark := by
  rintro rfl
  rw [plain] at special
  cases special

/-- White space, of which there must be some. -/
def blanks : Pattern := both (one isBlank) (many isBlank)

def name : Pattern := both (one isNameStart) (many isNameChar)

/-- The word `local` and white space. -/
def localMark : Pattern := both boundary (both (literal "local".toList) blanks)

/-- The word `function`, white space, a name, and an opening parenthesis, before which there may be
white space. -/
def heading : Pattern :=
  both boundary (both (literal "function".toList) (both blanks
    (both (group "name" name) (both (many isBlank) (literal ['('])))))

/-- A declaration, which is local if it is marked so. -/
def declaration : Pattern := both (maybe (group "local" localMark)) heading

/-- The name in a declaration that is not local. -/
def globalName? (m : Pattern.Match) : Option String :=
  match m.group? "local" with
  | some _ => none
  | none => (m.group? "name").map String.ofList

end Discover

/-- The names of the global functions that a source declares, each at its first declaration. Only
the text is looked at: comments and strings are not told apart from code. -/
def discover (source : String) : List String :=
  ((Discover.declaration.search source.toList).filterMap fun found =>
    Discover.globalName? found.2).eraseDups

end ScriptHost
