import ScriptHost.Script.Ast
import ScriptHost.Script.Lexer

set_option autoImplicit false

namespace ScriptHost.Script

structure Variable where
  name : Bytes
  constant : Bool

/-- A label, its line, and how many variables are in scope at it. -/
structure Landing where
  name : Bytes
  line : Nat
  depth : Nat

/-- A jump to a label that is not known yet, and how many variables are in scope at it. -/
structure Jump where
  name : Bytes
  line : Nat
  depth : Nat

/-- A block: its variables, the latest first, its labels, and its open jumps in order. -/
structure Block where
  loop : Bool
  inScope : List Variable
  labels : List Landing
  jumps : List Jump

def Block.ofLoop (loop : Bool) : Block := ⟨loop, [], [], []⟩

/-- A function that is being read: whether it takes any arguments, and its blocks, the innermost
first. -/
structure FunctionScope where
  variadic : Bool
  blocks : List Block

def FunctionScope.inScope (f : FunctionScope) : List Variable :=
  f.blocks.flatMap Block.inScope

/-- The state of a reader. -/
structure Reading where
  lexemes : List Lexeme
  /-- The line of the token that was read last. -/
  lastLine : Nat
  /-- The functions around the place that was reached, the innermost first. -/
  functions : List FunctionScope

/-- Why a script cannot be read: an error in it, or too many levels in each other. -/
inductive LoadError where
  | text (e : SyntaxError)
  | nesting
deriving DecidableEq, Repr

abbrev Parser := EStateM LoadError Reading

namespace Parser

def current : Parser Lexeme := return (← get).lexemes.headD ⟨.eof, 0⟩

def token : Parser Token := return (← current).token

def line : Parser Nat := return (← current).line

def lastLine : Parser Nat := return (← get).lastLine

/-- A bound on how often a loop over the tokens can go on. -/
def fuel : Parser Nat := return (← get).lexemes.length + 1

/-- Fails with what the text of a token is found to be wrong. -/
def checkToken : Parser Unit := do
  match ← current with
  | ⟨.fault fault near, line⟩ => throw (.text ⟨fault, line, near⟩)
  | _ => return ()

/-- Takes the next token. -/
def advance : Parser Unit := do
  modify fun r =>
    { r with lexemes := r.lexemes.drop 1, lastLine := (r.lexemes.headD ⟨.eof, 0⟩).line }
  checkToken

/-- Fails at the next token. -/
def refuse {α : Type} (fault : SyntaxFault) : Parser α := do
  let lexeme ← current
  let near := match lexeme.token with
    | .eof => eofText
    | token => token.shown
  throw (.text ⟨fault, lexeme.line, some near⟩)

/-- Fails where no token is to blame. -/
def refuseMeaning {α : Type} (fault : SyntaxFault) : Parser α := do
  throw (.text ⟨fault, ← line, none⟩)

/-- Whether a word or symbol is next. -/
def isNext (text : String) : Parser Bool := return (← token) == .fixed text

/-- Takes a word or symbol if it is next. -/
def take? (text : String) : Parser Bool := do
  if ← isNext text then
    advance
    return true
  else return false

def inQuotes (text : String) : String := "'" ++ text ++ "'"

def take (text : String) : Parser Unit := do
  if !(← take? text) then refuse (.expected (inQuotes text))

/-- Takes what closes something that was opened on a line. -/
def close (text opener : String) (opened : Nat) : Parser Unit := do
  if !(← take? text) then
    if (← line) = opened then refuse (.expected (inQuotes text))
    else refuse (.unclosed (inQuotes text) (inQuotes opener) opened)

def name : Parser Bytes := do
  match ← token with
  | .name text => do
      advance
      return text
  | _ => refuse (.expected "<name>")

/-- Takes results until there is none. -/
def many {α : Type} (step : Parser (Option α)) : Nat → Parser (List α)
  | 0 => return []
  | fuel + 1 => do
      match ← step with
      | none => return []
      | some result => return result :: (← many step fuel)

def currentFunction : Parser FunctionScope := return (← get).functions.headD ⟨true, []⟩

def currentBlock : Parser Block := return (← currentFunction).blocks.headD (.ofLoop false)

def changeFunction (change : FunctionScope → FunctionScope) : Parser Unit :=
  modify fun r => match r.functions with
    | f :: rest => { r with functions := change f :: rest }
    | [] => r

def changeBlock (change : Block → Block) : Parser Unit :=
  changeFunction fun f => match f.blocks with
    | b :: rest => { f with blocks := change b :: rest }
    | [] => f

/-- The variables in scope, the latest first. -/
def inScope : Parser (List Variable) := return (← get).functions.flatMap (·.inScope)

/-- How many variables are in scope. -/
def depth : Parser Nat := return (← inScope).length

def declare (added : List Variable) : Parser Unit :=
  changeBlock fun b => { b with inScope := added.reverse ++ b.inScope }

/-- The variable that a name stands for, if there is one in scope. -/
def resolve? (name : Bytes) : Parser (Option Expr) := do
  match (← inScope).findIdx? (·.name == name) with
  | some index => return some (.var index name ((← currentFunction).inScope.length ≤ index))
  | none => return none

/-- What a name stands for: a variable, or a field of the table of global names. -/
def named (name : Bytes) : Parser Expr := do
  match ← resolve? name with
  | some e => return e
  | none =>
      let env := (← resolve? envName).getD (.constant .nil)
      return .index env (.constant (.string name)) (← lastLine)

/-- Fails if a place must not be assigned to. -/
def checkWritable : Expr → Parser Unit
  | .var index name _ => do
      if ((← inScope)[index]?.map (·.constant)).getD false then
        refuseMeaning (.assignToConstant name)
  | _ => return ()

/-- The name under which the end of a loop is jumped to. -/
def breakName : Bytes := utf8 "break"

/-- A label of the function that is visible here. -/
def landing? (name : Bytes) : Parser (Option Landing) := do
  return ((← currentFunction).blocks.flatMap Block.labels).find? (·.name == name)

def addJump (name : Bytes) (line : Nat) : Parser Unit := do
  let depth ← depth
  changeBlock fun b => { b with jumps := b.jumps ++ [⟨name, line, depth⟩] }

/-- Adds a label to the block, and lets the open jumps to it find it. -/
def addLanding (landing : Landing) : Parser Unit := do
  let block ← currentBlock
  match block.jumps.find? fun j => j.name == landing.name && j.depth < landing.depth with
  | some jump =>
      let hidden := (← inScope).reverse[jump.depth]?.map (·.name)
      refuseMeaning (.jumpIntoScope jump.name jump.line (hidden.getD []))
  | none =>
      changeBlock fun b =>
        { b with labels := landing :: b.labels, jumps := b.jumps.filter (·.name != landing.name) }

/-- What a jump that found no label is faulted with. -/
def Jump.fault (jump : Jump) : SyntaxFault :=
  if jump.name = breakName then .breakOutsideLoop jump.line else .noLabel jump.name jump.line

/-- Reads something in a block of its own. Open jumps leave it, but a jump to the end of a loop
ends at its loop. -/
def inBlock {α : Type} (loop : Bool) (inner : Parser α) : Parser α := do
  changeFunction fun f => { f with blocks := .ofLoop loop :: f.blocks }
  let result ← inner
  let block ← currentBlock
  changeFunction fun f => { f with blocks := f.blocks.drop 1 }
  let depth ← depth
  let left := block.jumps.filter fun j => !(loop && j.name == breakName)
  changeBlock fun b =>
    { b with jumps := b.jumps ++ left.map fun j => { j with depth := min j.depth depth } }
  return result

/-- Reads something as the body of a function. -/
def inFunction {α : Type} (inner : Parser α) : Parser α := do
  modify fun r => { r with functions := ⟨false, [.ofLoop false]⟩ :: r.functions }
  let result ← inner
  match (← currentBlock).jumps with
  | jump :: _ => refuseMeaning (Jump.fault jump)
  | [] =>
      modify fun r => { r with functions := r.functions.drop 1 }
      return result

end Parser

end ScriptHost.Script
