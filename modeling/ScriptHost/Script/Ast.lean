import ScriptHost.Script.Datum

set_option autoImplicit false

namespace ScriptHost.Script

inductive BinaryOp where
  | add
  | sub
  | mul
  | div
  | idiv
  | mod
  | pow
  | band
  | bor
  | bxor
  | shl
  | shr
  | concat
  | eq
  | ne
  | lt
  | le
  | gt
  | ge
deriving DecidableEq, Repr

inductive UnaryOp where
  | neg
  | bnot
  | not
  | len
deriving DecidableEq, Repr

mutual

/-- A variable is known by how many variables were declared behind it and are still in scope; a
global name is a field of the variable `_ENV`. Nodes that can fail carry the line that messages
name. -/
inductive Expr where
  | constant (value : Datum)
  | varargs
  | var (index : Nat) (name : Bytes) (outer : Bool)
  | index (object key : Expr) (line : Nat)
  | call (callee : Expr) (args : List Expr) (line : Nat)
  | send (object : Expr) (method : Bytes) (args : List Expr) (selectLine line : Nat)
  | function (body : Function)
  | binary (op : BinaryOp) (left right : Expr) (line : Nat)
  | unary (op : UnaryOp) (operand : Expr) (line : Nat)
  | both (left right : Expr)
  | either (left right : Expr)
  | table (items : List Item)
  /-- The first value of an expression in parentheses. -/
  | single (inner : Expr)

inductive Item where
  | positional (value : Expr)
  | keyed (key value : Expr) (line : Nat)

inductive Stmt where
  | call (call : Expr)
  | locals (count : Nat) (values : List Expr)
  | localFunction (body : Function)
  | assign (targets values : List Expr) (line : Nat)
  | block (body : List Stmt)
  | whileLoop (condition : Expr) (body : List Stmt)
  | repeatLoop (body : List Stmt) (condition : Expr)
  | branch (condition : Expr) (yes no : List Stmt)
  | countLoop (start limit step : Expr) (body : List Stmt) (line : Nat)
  | eachLoop (values : List Expr) (count : Nat) (body : List Stmt) (line : Nat)
  | ret (values : List Expr)
  | breakLoop
  | goto (label : Bytes)
  /-- A place to jump to, and how many variables are in scope there. -/
  | label (name : Bytes) (depth : Nat)

inductive Function where
  | mk (parameters : Nat) (variadic : Bool) (body : List Stmt)

end

instance : Inhabited Expr := ⟨.constant .nil⟩

instance : Inhabited Function := ⟨.mk 0 true []⟩

/-- What messages call a value: the kind of place it comes from, and its name there. -/
structure Label where
  kind : String
  name : Bytes
deriving DecidableEq, Repr

/-- The name under which a value was taken from a table, by the key as it is written. -/
def Expr.keyName : Expr → Bytes
  | constant (.string name) => name
  | constant (.integer n) => if 0 ≤ n ∧ n ≤ 255 then utf8 "integer index" else utf8 "?"
  | _ => utf8 "?"

/-- The name of the variable that holds the global names. -/
def envName : Bytes := utf8 "_ENV"

/-- What messages call the value of an expression. -/
def Expr.label : Expr → Option Label
  | var _ name outer => some ⟨if outer then "upvalue" else "local", name⟩
  | constant (.string text) => some ⟨"constant", text⟩
  | index (var _ name _) key _ =>
      match key with
      | constant (.integer _) => some ⟨"field", key.keyName⟩
      | _ => some ⟨if name = envName then "global" else "field", key.keyName⟩
  | index _ key _ => some ⟨"field", key.keyName⟩
  | single inner => inner.label
  | _ => none

/-- The same expression, with the line on which its outermost access to a table happens. -/
def Expr.atLine (line : Nat) : Expr → Expr
  | index object key _ => index object key line
  | e => e

/-- Whether an expression can be assigned to. -/
def Expr.isPlace : Expr → Bool
  | var _ _ _ | index _ _ _ => true
  | _ => false

def Expr.isCall : Expr → Bool
  | call _ _ _ | send _ _ _ _ _ => true
  | _ => false

end ScriptHost.Script
