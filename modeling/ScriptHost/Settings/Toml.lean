set_option autoImplicit false

namespace ScriptHost.Toml

/-- What a line can give to a name. -/
inductive Scalar where
  | string (text : String)
  | integer (value : Int)
deriving DecidableEq, Repr

def isBlank (c : Char) : Bool := c = ' ' || c = '\t'

def skipBlanks (s : List Char) : List Char := s.dropWhile isBlank

/-- Whether a character may stand in a line: no control character of ASCII but the tab. -/
def isText (c : Char) : Bool := c = '\t' || (32 ≤ c.toNat && c.toNat ≠ 127)

/-- What follows the end of a line. -/
def lineEnd? : List Char → Option (List Char)
  | '\n' :: s => some s
  | '\r' :: '\n' :: s => some s
  | _ => none

/-- What follows the rest of a line, if that is blank or a comment. -/
def blankLine? (s : List Char) : Option (List Char) :=
  match skipBlanks s with
  | [] => some []
  | '#' :: s =>
      match s.dropWhile isText with
      | [] => some []
      | s => lineEnd? s
  | s => lineEnd? s

/-- What follows blanks and ends of lines. -/
def skipLines : List Char → List Char
  | [] => []
  | '\r' :: '\n' :: s => skipLines s
  | c :: s => if isBlank c || c = '\n' then skipLines s else c :: s

/-- What a string stands between, and what may stand in it. -/
structure Quoting where
  mark : Char
  escapes : Bool
  lines : Bool

def hexDigit? (c : Char) : Option Nat :=
  if c.isDigit then some (c.toNat - 48)
  else if 'a' ≤ c ∧ c ≤ 'f' then some (c.toNat - 87)
  else if 'A' ≤ c ∧ c ≤ 'F' then some (c.toNat - 55)
  else none

/-- Reads a character that is written as some hexadecimal digits. -/
def codePoint? (width : Nat) (s : List Char) : Option (Char × List Char) :=
  match (s.take width).foldlM (fun n c => (hexDigit? c).map (16 * n + ·)) 0 with
  | some code =>
      if width ≤ s.length ∧ code.isValidChar then some (Char.ofNat code, s.drop width) else none
  | none => none

/-- Reads an escape behind its backslash. -/
def escape? : List Char → Option (Char × List Char)
  | 'b' :: s => some ('\x08', s)
  | 't' :: s => some ('\t', s)
  | 'n' :: s => some ('\n', s)
  | 'f' :: s => some ('\x0c', s)
  | 'r' :: s => some ('\r', s)
  | '"' :: s => some ('"', s)
  | '\\' :: s => some ('\\', s)
  | 'u' :: s => codePoint? 4 s
  | 'U' :: s => codePoint? 8 s
  | _ => none

/-- What follows an end of line that a backslash takes away, with the blanks and lines behind it. -/
def joinedLine? (s : List Char) : Option (List Char) := (lineEnd? (skipBlanks s)).map skipLines

/-- Reads a string of lines from some marks on. Fewer than three of them are part of it; of more
than three, up to two are. -/
def marks (mark : Char) (s : List Char) : List Char × Bool × List Char :=
  let count := (s.takeWhile (· = mark)).length
  if count < 3 then (List.replicate count mark, false, s.drop count)
  else (List.replicate (min (count - 3) 2) mark, true, s.drop (min count 5))

/-- Reads a string behind its opening mark; what is read so far is given in reverse. The fuel is the
length of the input. -/
def stringBody? (q : Quoting) : Nat → List Char → List Char → Option (String × List Char)
  | _, _, [] => none
  | 0, _, _ => none
  | fuel + 1, read, c :: s =>
      if c = q.mark then
        if q.lines then
          match marks c (c :: s) with
          | (found, true, s) => some (String.ofList (found ++ read).reverse, s)
          | (found, false, s) => stringBody? q fuel (found ++ read) s
        else some (String.ofList read.reverse, s)
      else if q.escapes && c = '\\' then
        match if q.lines then joinedLine? s else none with
        | some s => stringBody? q fuel read s
        | none =>
            match escape? s with
            | some (c, s) => stringBody? q fuel (c :: read) s
            | none => none
      else
        match if q.lines then lineEnd? (c :: s) else none with
        | some s => stringBody? q fuel ('\n' :: read) s
        | none => if isText c then stringBody? q fuel (c :: read) s else none

/-- Reads a string within one line, if one is there. -/
def lineString? : List Char → Option (String × List Char)
  | '"' :: s => stringBody? ⟨'"', true, false⟩ s.length [] s
  | '\'' :: s => stringBody? ⟨'\'', false, false⟩ s.length [] s
  | _ => none

/-- Reads a string of lines behind its opening marks. A line that ends right there does not count.
-/
def linesBody? (q : Quoting) (s : List Char) : Option (String × List Char) :=
  let s := (lineEnd? s).getD s
  stringBody? q s.length [] s

/-- Reads a string, if one is there. -/
def string? : List Char → Option (String × List Char)
  | '"' :: '"' :: '"' :: s => linesBody? ⟨'"', true, true⟩ s
  | '\'' :: '\'' :: '\'' :: s => linesBody? ⟨'\'', false, true⟩ s
  | s => lineString? s

/-- The number that digits of a base spell, with single underscores between digits. -/
def digits? (base : Nat) : Option Nat → List Char → Option Nat
  | read, [] => read
  | some n, '_' :: c :: s => digit c s n
  | some n, c :: s => digit c s n
  | none, c :: s => digit c s 0
where
  digit (c : Char) (s : List Char) (n : Nat) : Option Nat :=
    match hexDigit? c with
    | some d => if d < base then digits? base (some (base * n + d)) s else none
    | none => none

/-- Reads the digits of an integer to their end. -/
def digitsFrom? (base : Nat) (s : List Char) : Option (Nat × List Char) :=
  let isPart (c : Char) : Bool := c.isAlphanum || c = '_'
  (digits? base none (s.takeWhile isPart)).map (·, s.dropWhile isPart)

/-- Reads a decimal number, which has no zero in front. -/
def decimal? : List Char → Option (Nat × List Char)
  | '0' :: s => some (0, s)
  | s => digitsFrom? 10 s

/-- Reads an integer, if one is there. -/
def integer? : List Char → Option (Int × List Char)
  | '0' :: 'x' :: s => (digitsFrom? 16 s).map fun r => (r.1, r.2)
  | '0' :: 'o' :: s => (digitsFrom? 8 s).map fun r => (r.1, r.2)
  | '0' :: 'b' :: s => (digitsFrom? 2 s).map fun r => (r.1, r.2)
  | '+' :: s => (decimal? s).map fun r => (r.1, r.2)
  | '-' :: s => (decimal? s).map fun r => (-(r.1 : Int), r.2)
  | s => (decimal? s).map fun r => (r.1, r.2)

def isNameChar (c : Char) : Bool := c.isAlphanum || c = '_' || c = '-'

/-- Reads a name, which may be quoted. -/
def name? (s : List Char) : Option (String × List Char) :=
  match s.takeWhile isNameChar with
  | [] => lineString? s
  | name => some (String.ofList name, s.dropWhile isNameChar)

/-- Reads a value. -/
def scalar? (s : List Char) : Option (Scalar × List Char) :=
  match string? s with
  | some (text, s) => some (.string text, s)
  | none => (integer? s).map fun r => (.integer r.1, r.2)

/-- Reads a line that gives a value to a name, and passes over its end. -/
def entry? (s : List Char) : Option ((String × Scalar) × List Char) := do
  let (name, s) ← name? (skipBlanks s)
  match skipBlanks s with
  | '=' :: s =>
      let (value, s) ← scalar? (skipBlanks s)
      return ((name, value), ← blankLine? s)
  | _ => none

/-- Reads lines to the end; no name is given twice. The fuel is one more than the length of the
input. -/
def entries? : Nat → List (String × Scalar) → List Char → Option (List (String × Scalar))
  | _, read, [] => some read.reverse
  | 0, _, _ => none
  | fuel + 1, read, s =>
      match blankLine? s with
      | some s => entries? fuel read s
      | none =>
          match entry? s with
          | some (entry, s) =>
              if (read.lookup entry.1).isSome then none else entries? fuel (entry :: read) s
          | none => none

/-- Reads the names and values of a text. A mark of the byte order may stand in front. Of TOML only
what settings are written in is read: lines that give a string or an integer to a name, and
comments. -/
def parse? (text : String) : Option (List (String × Scalar)) :=
  match text.toList with
  | '\ufeff' :: s => entries? (s.length + 1) [] s
  | s => entries? (s.length + 1) [] s

end ScriptHost.Toml
