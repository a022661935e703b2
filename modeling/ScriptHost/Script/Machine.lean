import ScriptHost.Script.Eval
import ScriptHost.Script.Library.Base
import ScriptHost.Script.Library.Math
import ScriptHost.Script.Library.Sequence
import ScriptHost.Script.Library.Text
import ScriptHost.Script.Parser

set_option autoImplicit false

/- Running scripts. A call runs the body of a function with calls that go one level less deep, so
the machine recurses on the levels left; when none are left, the script has overflowed its stack. -/
namespace ScriptHost.Script

def Builtin.run (f : Builtin) (a : Activation) : Run (List Datum) :=
  match f with
  | base f => f.run a
  | math f => f.run a
  | string f => f.run a
  | table f => f.run a
  | coroutine .create =>
      if (a.arg 1).isFunction then return [← Run.newThread] else a.wrongType 1 "function"

namespace Machine

/-- How often a loop may go round, and how often a call may end in another. -/
def rounds : Nat := 1000000000

/-- How deep calls may nest. A call takes some slots of a stack that has a million of them. -/
def depth : Nat := 200000

/-- Runs the body of a function of a script. -/
def enter (call : Call) (f : Closure) (sites : List Site) (args : List Datum) : Run Signal :=
  match f.body with
  | .mk parameters variadic body => do
      let env ← declared f.cells (adjust parameters args)
      let frame : Frame := ⟨if variadic then args.drop parameters else [], sites, call, rounds⟩
      execBlock body frame env

/-- Calls a value, and whatever calls it ends in. Of the sites the first is that of the call. -/
def callThrough (call : Call) : Nat → Call
  | 0, _, _, _ => throw .exhausted
  | fuel + 1, sites, callee, args =>
      match callee with
      | .closure id => do
          match ← enter call (← Run.closure id) sites args with
          | .returned values => return values
          | .tail _ (.closure id) args => callThrough call fuel sites (.closure id) args
          | .tail site callee args => callThrough call fuel (site :: sites) callee args
          | _ => return []
      | .builtin f => f.run ⟨⟨none, sites, call⟩, f, args⟩
      | value => do
          let standing ← Context.handler "call" value
          if standing.isNil then
            let site := sites.headD ⟨none, none⟩
            Context.failType ⟨site.line, sites, call⟩ "call" value site.callee
          else callThrough call fuel sites standing (value :: args)

/-- Calls a value with so many levels of calls at most. -/
def invoke : Nat → Call
  | 0, sites, _, _ =>
      Context.fail ⟨(sites.head?.bind Site.line), sites, fun _ _ _ => return []⟩
        (utf8 "stack overflow")
  | levels + 1, sites, callee, args => callThrough (invoke levels) rounds sites callee args

/-- Calls a value from outside of any script. -/
def run (callee : Datum) (args : List Datum) : Run (List Datum) :=
  invoke depth [⟨none, none⟩] callee args

def library {α : Type} (named : List (String × α)) (builtin : α → Builtin) :
    List (Datum × Datum) :=
  named.map fun (name, f) => (.text name, .builtin (builtin f))

def constants (named : List (String × Datum)) : List (Datum × Datum) :=
  named.map fun (name, value) => (.text name, value)

def tableOfEntries (entries : List (Datum × Datum)) : Table := ⟨entries, none, 0⟩

/-- The tables of the libraries, by their global names, from the third table of the heap on. -/
def libraries : List (String × List (Datum × Datum)) :=
  [("string", library StringFunction.named .string), ("table", library TableFunction.named .table),
    ("math", library MathFunction.named .math ++ constants MathFunction.constants),
    ("coroutine", library CoroutineFunction.named .coroutine),
    ("io", constants [("stdout", .file)])]

/-- Where the table of the library at a position is. -/
def libraryId (position : Nat) : Nat := 2 + position

def globals : Table :=
  tableOfEntries (library BaseFunction.named .base ++
    libraries.mapIdx (fun i l => (.text l.1, .table (libraryId i))) ++
    [(.text "_G", .table Heap.globalsId), (.text "_VERSION", .text "Lua 5.4")])

def stringMetatable : Table := tableOfEntries [(.text "__index", .table (libraryId 0))]

/-- The heap in which every script starts: what its libraries hold, and the cell of the variable
that holds the table of global names. -/
def start : Heap :=
  ⟨(globals :: stringMetatable :: libraries.map fun l => tableOfEntries l.2).toArray,
    #[.table Heap.globalsId], #[], 0⟩

/-- The main function of a script, which sees the table of global names from outside. -/
def load (body : Function) : Run Datum := Run.newClosure body [0]

end Machine

end ScriptHost.Script
