import ScriptHost.Script.Scope

set_option autoImplicit false

namespace ScriptHost.Script

open ScriptHost.Script.Parser

/-- Readers for what lies one level down: an expression whose operators bind tighter than a given
strength, and a statement. -/
structure Level where
  expr : Nat → Parser Expr
  statement : Parser (List Stmt)

namespace Level

def none : Level := ⟨fun _ => throw .nesting, throw .nesting⟩

/-- An expression that any operator may continue. -/
def whole (inner : Level) : Parser Expr := inner.expr 0

/-- An expression whose access to a table happens at the token read last. -/
def settled (e : Expr) : Parser Expr := return e.atLine (← lastLine)

/-- The expressions behind the first of a list; each but the last is settled at its comma. -/
def moreExprs (inner : Level) : Nat → Expr → Parser (List Expr)
  | 0, e => return [e]
  | fuel + 1, e => do
      if ← take? "," then
        let e ← settled e
        return e :: (← moreExprs inner fuel (← inner.whole))
      else return [e]

/-- A list of expressions, the last one not settled. -/
def exprs (inner : Level) : Parser (List Expr) := do
  moreExprs inner (← fuel) (← inner.whole)

/-- Settles the last expression of a list at the token read last. -/
def settleLast (es : List Expr) : Parser (List Expr) := do
  let line ← lastLine
  return es.dropLast ++ (es.getLast?.map (Expr.atLine line)).toList

/-- A key in brackets. -/
def bracketKey (inner : Level) : Parser Expr := do
  advance
  let key ← settled (← inner.whole)
  take "]"
  return key

/-- An entry of a table under a key, behind the key. -/
def entry (inner : Level) (key : Expr) : Parser Item := do
  take "="
  let value ← settled (← inner.whole)
  return .keyed key value (← lastLine)

/-- Whether the token after the next one is an equals sign. -/
def secondIsEquals : Parser Bool :=
  return ((← get).lexemes[1]?.map (·.token)) == some (.fixed "=")

/-- An item of a table. -/
def item (inner : Level) : Parser Item := do
  match ← token with
  | .name name =>
      if ← secondIsEquals then
        advance
        entry inner (.constant (.string name))
      else return .positional (← inner.whole)
  | .fixed "[" => entry inner (← bracketKey inner)
  | _ => return .positional (← inner.whole)

/-- The items of a table, up to where its closing brace is due. -/
def items (inner : Level) : Nat → Parser (List Item)
  | 0 => return []
  | fuel + 1 => do
      if ← isNext "\x7d" then return []
      let item ← item inner
      if (← take? ",") || (← take? ";") then
        let item ← match item with
          | .positional value =>
              if ← isNext "\x7d" then pure item
              else return .positional (← settled value) :: (← items inner fuel)
          | keyed => pure keyed
        return item :: (← items inner fuel)
      else return [item]

/-- Settles the last item of a table at its closing brace. -/
def settleItems (items : List Item) : Parser (List Item) := do
  let line ← lastLine
  return items.dropLast ++ (items.getLast?.map fun item => match item with
    | .positional value => .positional (value.atLine line)
    | keyed => keyed).toList

def table (inner : Level) : Parser Expr := do
  let opened ← line
  take "\x7b"
  let items ← items inner (← fuel)
  close "\x7d" "\x7b" opened
  return .table (← settleItems items)

/-- The arguments of a call. -/
def arguments (inner : Level) : Parser (List Expr) := do
  let opened ← line
  match ← token with
  | .fixed "(" =>
      advance
      if ← take? ")" then return []
      let args ← exprs inner
      close ")" "(" opened
      settleLast args
  | .fixed "\x7b" => return [← table inner]
  | .string value _ =>
      advance
      return [.constant (.string value)]
  | _ => refuse (.expected "function arguments")

/-- What may stand first in an expression with accesses and calls. -/
def primary (inner : Level) : Parser Expr := do
  match ← token with
  | .name text =>
      advance
      named text
  | .fixed "(" =>
      let opened ← line
      advance
      let e ← inner.whole
      close ")" "(" opened
      return .single (← settled e)
  | _ => refuse .unexpectedSymbol

/-- The accesses and calls that follow an expression. -/
def suffixes (inner : Level) : Nat → Expr → Parser Expr
  | 0, e => return e
  | fuel + 1, e => do
      match ← token with
      | .fixed "." =>
          let e ← settled e
          advance
          let key ← name
          suffixes inner fuel (.index e (.constant (.string key)) (← lastLine))
      | .fixed "[" =>
          let e ← settled e
          let key ← bracketKey inner
          suffixes inner fuel (.index e key (← lastLine))
      | .fixed ":" =>
          advance
          let method ← name
          let e ← settled e
          let selectLine ← lastLine
          let line ← line
          suffixes inner fuel (.send e method (← arguments inner) selectLine line)
      | .fixed "(" | .fixed "\x7b" | .string _ _ =>
          let e ← settled e
          let line ← line
          suffixes inner fuel (.call e (← arguments inner) line)
      | _ => return e

def suffixed (inner : Level) : Parser Expr := do
  suffixes inner (← fuel) (← primary inner)

/-- Whether a block ends at the next token; `until` ends some blocks only. -/
def atBlockEnd (withUntil : Bool) : Parser Bool := do
  match ← token with
  | .fixed text =>
      return ["else", "elseif", "end"].contains text || (withUntil && text == "until")
  | .eof => return true
  | _ => return false

/-- Statements to the end of a block. Nothing follows a return. -/
def statements (inner : Level) : Nat → Parser (List Stmt)
  | 0 => return []
  | fuel + 1 => do
      if ← atBlockEnd true then return []
      if ← isNext "return" then inner.statement
      else
        let first ← inner.statement
        return first ++ (← statements inner fuel)

def block (inner : Level) : Parser (List Stmt) := do
  inBlock false (do statements inner (← fuel))

/-- The parameters of a function, and whether it takes more than these. -/
def parameters : Nat → Parser (List Bytes × Bool)
  | 0 => return ([], false)
  | fuel + 1 => do
      match ← token with
      | .name text =>
          advance
          if ← take? "," then
            let (rest, variadic) ← parameters fuel
            return (text :: rest, variadic)
          else return ([text], false)
      | .fixed "..." =>
          advance
          return ([], true)
      | _ => refuse .parameterExpected

/-- A function behind its name; a method has a parameter of its own in front. -/
def functionBody (inner : Level) (method : Bool) (opened : Nat) : Parser Function :=
  inFunction (do
    take "("
    let (names, variadic) ← if ← isNext ")" then pure ([], false) else parameters (← fuel)
    let names := if method then utf8 "self" :: names else names
    changeFunction fun f => { f with variadic := variadic }
    declare (names.map fun name => ⟨name, false⟩)
    take ")"
    let body ← statements inner (← fuel)
    close "end" "function" opened
    return .mk names.length variadic body)

/-- An expression without operators. -/
def simple (inner : Level) : Parser Expr := do
  let constant (value : Datum) : Parser Expr := do
    advance
    return .constant value
  match ← token with
  | .number value _ => constant value
  | .string value _ => constant (.string value)
  | .fixed "nil" => constant .nil
  | .fixed "true" => constant (.bool true)
  | .fixed "false" => constant (.bool false)
  | .fixed "..." =>
      if (← currentFunction).variadic then
        advance
        return .varargs
      else refuse .outsideVariadic
  | .fixed "\x7b" => table inner
  | .fixed "function" =>
      advance
      let opened ← line
      return .function (← functionBody inner false opened)
  | _ => suffixed inner

/-- How tight an operator binds on its left and on its right, and what it makes of two operands and
its line. -/
structure Operator where
  left : Nat
  right : Nat
  apply : Expr → Expr → Nat → Expr

/-- The operators by their symbols. -/
def operator? (symbol : String) : Option Operator :=
  let arithmetic (left right : Nat) (op : BinaryOp) : Option Operator :=
    some ⟨left, right, .binary op⟩
  match symbol with
  | "or" => some ⟨1, 1, fun a b _ => .either a b⟩
  | "and" => some ⟨2, 2, fun a b _ => .both a b⟩
  | "<" => arithmetic 3 3 .lt
  | ">" => arithmetic 3 3 .gt
  | "<=" => arithmetic 3 3 .le
  | ">=" => arithmetic 3 3 .ge
  | "~=" => arithmetic 3 3 .ne
  | "==" => arithmetic 3 3 .eq
  | "|" => arithmetic 4 4 .bor
  | "~" => arithmetic 5 5 .bxor
  | "&" => arithmetic 6 6 .band
  | "<<" => arithmetic 7 7 .shl
  | ">>" => arithmetic 7 7 .shr
  | ".." => arithmetic 9 8 .concat
  | "+" => arithmetic 10 10 .add
  | "-" => arithmetic 10 10 .sub
  | "*" => arithmetic 11 11 .mul
  | "/" => arithmetic 11 11 .div
  | "//" => arithmetic 11 11 .idiv
  | "%" => arithmetic 11 11 .mod
  | "^" => arithmetic 14 13 .pow
  | _ => Option.none

/-- How tight the operators in front of an operand bind. -/
def unaryStrength : Nat := 12

def unaryOp? : String → Option UnaryOp
  | "not" => some .not
  | "-" => some .neg
  | "~" => some .bnot
  | "#" => some .len
  | _ => Option.none

/-- The operator that comes next, if it binds tighter than a given strength. -/
def nextOperator (strength : Nat) : Parser (Option Operator) := do
  match ← token with
  | .fixed symbol => return (operator? symbol).filter (strength < ·.left)
  | _ => return Option.none

/-- The operators that follow an operand, with their right operands. -/
def operations (inner : Level) (strength : Nat) : Nat → Expr → Parser Expr
  | 0, e => return e
  | fuel + 1, left => do
      match ← nextOperator strength with
      | Option.none => return left
      | some operator =>
          let line ← line
          advance
          let left ← settled left
          let right ← inner.expr operator.right
          let right ← settled right
          operations inner strength fuel (operator.apply left right line)

/-- An expression whose operators bind tighter than a given strength. -/
def exprFrom (inner : Level) (strength : Nat) : Parser Expr := do
  let first ← match ← token with
    | .fixed symbol =>
        match unaryOp? symbol with
        | some op => do
            let line ← line
            advance
            let operand ← settled (← inner.expr unaryStrength)
            pure (.unary op operand line)
        | Option.none => simple inner
    | _ => simple inner
  operations inner strength (← fuel) first

/-- The conditions and blocks of a conditional statement, behind its first word. -/
def branches (inner : Level) (opened : Nat) : Nat → Parser (List Stmt)
  | 0 => return []
  | fuel + 1 => do
      advance
      let condition ← inner.whole
      take "then"
      let condition ← settled condition
      let yes ← block inner
      if ← isNext "elseif" then return [.branch condition yes (← branches inner opened fuel)]
      else if ← take? "else" then
        let no ← block inner
        close "end" "if" opened
        return [.branch condition yes no]
      else
        close "end" "if" opened
        return [.branch condition yes []]

def whileStatement (inner : Level) (opened : Nat) : Parser (List Stmt) := do
  advance
  let condition ← settled (← inner.whole)
  inBlock true (do
    take "do"
    let body ← block inner
    close "end" "while" opened
    return [.whileLoop condition body])

def repeatStatement (inner : Level) (opened : Nat) : Parser (List Stmt) :=
  inBlock true (inBlock false (do
    advance
    let body ← statements inner (← fuel)
    close "until" "repeat" opened
    return [.repeatLoop body (← settled (← inner.whole))]))

/-- The body of a loop with variables of its own, behind its head; the line is that of `do`. -/
def loopBody (inner : Level) (names : List Bytes) : Parser (List Stmt × Nat) := do
  take "do"
  let line ← lastLine
  let body ← inBlock false (do
    declare (names.map fun name => ⟨name, false⟩)
    block inner)
  return (body, line)

def countStatement (inner : Level) (name : Bytes) : Parser Stmt := do
  take "="
  let start ← settled (← inner.whole)
  take ","
  let limit ← settled (← inner.whole)
  let step ← if ← take? "," then settled (← inner.whole) else pure (.constant (.integer 1))
  let (body, line) ← loopBody inner [name]
  return .countLoop start limit step body line

/-- The names behind the first of a list. -/
def moreNames : Nat → Parser (List Bytes)
  | 0 => return []
  | fuel + 1 => do
      if ← take? "," then
        let name ← name
        return name :: (← moreNames fuel)
      else return []

def eachStatement (inner : Level) (first : Bytes) : Parser Stmt := do
  let names := first :: (← moreNames (← fuel))
  take "in"
  let line ← line
  let values ← settleLast (← exprs inner)
  let (body, _) ← loopBody inner names
  return .eachLoop values names.length body line

def forStatement (inner : Level) (opened : Nat) : Parser (List Stmt) :=
  inBlock true (do
    advance
    let name ← name
    let loop ← match ← token with
      | .fixed "=" => countStatement inner name
      | .fixed "," | .fixed "in" => eachStatement inner name
      | _ => refuse .loopExpected
    close "end" "for" opened
    return [loop])

/-- The fields behind the first name of a function, and whether the last one makes it a method. -/
def functionName : Nat → Expr → Parser (Expr × Bool)
  | 0, e => return (e, false)
  | fuel + 1, e => do
      if (← isNext ".") || (← isNext ":") then
        let method ← isNext ":"
        let e ← settled e
        advance
        let key ← name
        let field := Expr.index e (.constant (.string key)) (← lastLine)
        if method then return (field, true) else functionName fuel field
      else return (e, false)

def functionStatement (inner : Level) (opened : Nat) : Parser (List Stmt) := do
  advance
  let first ← name
  let (place, method) ← functionName (← fuel) (← named first)
  let body ← functionBody inner method opened
  checkWritable place
  return [.assign [place] [.function body] opened]

/-- Whether a local variable with an attribute is constant. -/
def isConstantAttribute : Parser Bool := do
  if ← take? "<" then
    let kind ← name
    take ">"
    if kind = utf8 "const" ∨ kind = utf8 "close" then return true
    else refuseMeaning (.unknownAttribute kind)
  else return false

/-- The variables that a statement declares. -/
def declared : Nat → Parser (List Variable)
  | 0 => return []
  | fuel + 1 => do
      let name ← name
      let constant ← isConstantAttribute
      if ← take? "," then return ⟨name, constant⟩ :: (← declared fuel)
      else return [⟨name, constant⟩]

def localStatement (inner : Level) : Parser (List Stmt) := do
  advance
  if ← take? "function" then
    let name ← name
    declare [⟨name, false⟩]
    let opened ← line
    return [.localFunction (← functionBody inner false opened)]
  else
    let added ← declared (← fuel)
    let values ← if ← take? "=" then settleLast (← exprs inner) else pure []
    declare added
    return [.locals added.length values]

/-- A label behind its opening colons, and the labels and semicolons that follow it. -/
def labelStatement (inner : Level) : Parser (List Stmt) := do
  let opened ← line
  advance
  let label ← name
  take "::"
  let more ← many (do
    if (← isNext ";") || (← isNext "::") then return some (← inner.statement)
    else return Option.none) (← fuel)
  match ← landing? label with
  | some earlier => refuseMeaning (.repeatedLabel label earlier.line)
  | Option.none =>
      let inside := (← currentBlock).inScope.length
      let depth := (← depth) - (if ← atBlockEnd false then inside else 0)
      addLanding ⟨label, opened, depth⟩
      return .label label depth :: more.flatten

def returnStatement (inner : Level) : Parser (List Stmt) := do
  advance
  let values ← if (← atBlockEnd true) || (← isNext ";") then pure [] else settleLast (← exprs inner)
  let _ ← take? ";"
  return [.ret values]

def breakStatement (opened : Nat) : Parser (List Stmt) := do
  advance
  addJump breakName opened
  return [.breakLoop]

def gotoStatement (opened : Nat) : Parser (List Stmt) := do
  advance
  let label ← name
  if (← landing? label).isNone then addJump label opened
  return [.goto label]

/-- The places behind the first one that are assigned to, up to the equals sign. -/
def morePlaces (inner : Level) : Nat → Expr → Parser (List Expr)
  | 0, place => return [place]
  | fuel + 1, place => do
      if !place.isPlace then refuse .notAStatement
      checkWritable place
      if ← take? "," then return place :: (← morePlaces inner fuel (← suffixed inner))
      else
        take "="
        return [place]

/-- A call, or an assignment. -/
def expressionStatement (inner : Level) : Parser (List Stmt) := do
  let first ← suffixed inner
  if (← isNext "=") || (← isNext ",") then
    let places ← morePlaces inner (← fuel) first
    let values ← settleLast (← exprs inner)
    return [.assign places values (← lastLine)]
  else if first.isCall then return [.call first]
  else refuse .notAStatement

def statementFrom (inner : Level) : Parser (List Stmt) := do
  let opened ← line
  match ← token with
  | .fixed ";" =>
      advance
      return []
  | .fixed "if" => branches inner opened (← fuel)
  | .fixed "while" => whileStatement inner opened
  | .fixed "do" =>
      advance
      let body ← block inner
      close "end" "do" opened
      return [.block body]
  | .fixed "for" => forStatement inner opened
  | .fixed "repeat" => repeatStatement inner opened
  | .fixed "function" => functionStatement inner opened
  | .fixed "local" => localStatement inner
  | .fixed "::" => labelStatement inner
  | .fixed "return" => returnStatement inner
  | .fixed "break" => breakStatement opened
  | .fixed "goto" => gotoStatement opened
  | _ => expressionStatement inner

/-- What can be read with so many levels. -/
def ofNat : Nat → Level
  | 0 => none
  | levels + 1 => ⟨exprFrom (ofNat levels), statementFrom (ofNat levels)⟩

end Level

/-- How many levels of expressions and statements a script may have. -/
def levelLimit : Nat := 199

/-- Reads the main function of a script, to the end of the tokens. -/
def mainFunction : Parser Function := do
  checkToken
  inFunction (do
    changeFunction fun f => { f with variadic := true }
    let body ← Level.statements (.ofNat levelLimit) (← fuel)
    if (← token) != .eof then refuse (.expected "<eof>")
    return .mk 0 true body)

/-- What a script sees from outside: the table of global names. -/
def outerScope : FunctionScope := ⟨false, [⟨false, [⟨envName, false⟩], [], []⟩]⟩

/-- The main function of a script. -/
def parse (source : Bytes) : Except LoadError Function :=
  match mainFunction ⟨tokens source, 1, [outerScope]⟩ with
  | .ok f _ => .ok f
  | .error e _ => .error e

end ScriptHost.Script
