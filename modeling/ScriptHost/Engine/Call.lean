import ScriptHost.Engine.Crossing
import ScriptHost.Engine.Lower
import ScriptHost.Engine.Raise
import ScriptHost.Script.Machine

set_option autoImplicit false

namespace ScriptHost.Engine

open Script (Bytes Datum Heap LoadError Run Stop)

/-- A source that cannot be compiled, as reported. -/
def loadError : LoadError → CallError
  | .text e => .engine ("syntax error: " ++ lossyText e.message)
  | .nesting => engineError "C stack overflow"

/-- Compiles bytes. -/
def compileBytes (source : Bytes) : Except CallError Script.Function :=
  (Script.parse source).mapError loadError

/-- Compiles a source. -/
def compile (source : String) : Except CallError Script.Function := compileBytes (utf8 source)

/-- Whether a source compiles; it is not run. -/
def checkSyntax (source : String) : Except CallError Unit := (compile source).map fun _ => ()

/-- A source as an expression whose value is returned, if it is one, else as it is. -/
def compileValue (source : String) : Except CallError Script.Function :=
  match compileBytes (utf8 "return " ++ utf8 source) with
  | .ok body => .ok body
  | .error _ => compile source

/-- The text of a value that a script failed with, up to a zero byte. -/
def failureText (h : Heap) (value : Datum) : String :=
  let context : Script.Context := ⟨none, [], Script.Machine.invoke Script.Machine.depth⟩
  let text := match context.textOf value h with
    | .ok text _ => text
    | .error (.error inner) _ => inner.asText?.getD []
    | .error .exhausted _ => []
  lossyText (text.takeWhile (· != 0))

/-- The result of a computation of a script, with the heap behind it, or its failure as reported. -/
def outcome {α : Type} (run : Run α) (h : Heap) : Except CallError (α × Heap) :=
  match run h with
  | .ok result h => .ok (result, h)
  | .error (.error value) h => .error (engineError (failureText h value))
  | .error .exhausted _ => .error (engineError "the script does not end")

/-- Runs a compiled source in a new heap. -/
def runMain (body : Script.Function) : Except CallError (List Datum × Heap) :=
  outcome (do Script.Machine.run (← Script.Machine.load body) []) Script.Machine.start

/-- Puts arguments into a heap, one after the other. -/
def pushArguments (h : Heap) : List Value → Except CallError (List Datum × Heap)
  | [] => .ok ([], h)
  | value :: rest => do
      let (datum, h) ← push h (← lower value)
      let (more, h) ← pushArguments h rest
      return (datum :: more, h)

/-- Calls a function with values, and takes its first result. -/
def invoke (h : Heap) (f : Datum) (args : List Value) : Except CallError Value := do
  let (args, h) ← pushArguments h args
  let (results, h) ← outcome (Script.Machine.run f args) h
  let first ← match results with
    | [] => pure none
    | result :: _ => (read h result).map some
  raiseReturn first

/-- Runs a source, and then calls the global function with a name. -/
def callGlobal (source name : String) (args : List Value) : Except CallError Value := do
  let (_, h) ← runMain (← compile source)
  let context : Script.Context := ⟨none, [], Script.Machine.invoke Script.Machine.depth⟩
  let (f, h) ← outcome (context.index none (.table Heap.globalsId) (.text name)) h
  if f.isFunction then invoke h f args else .error .notAFunction

/-- Runs a source that returns a function, and then calls that function. -/
def callReturned (source : String) (args : List Value) : Except CallError Value := do
  let (results, h) ← runMain (← compileValue source)
  let f := results.headD .nil
  if f.isFunction then invoke h f args else .error .notAFunction

end ScriptHost.Engine
