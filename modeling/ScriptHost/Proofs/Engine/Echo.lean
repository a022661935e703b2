import ScriptHost.Engine.Call
import ScriptHost.Proofs.Engine.Cross
import ScriptHost.Proofs.Script.Run

set_option autoImplicit false

namespace ScriptHost.Engine

open Script (Datum Heap Machine.enter Machine.load Machine.run Machine.run_closure Machine.start)

namespace Echo

/-- A source that declares a function which returns its argument. -/
def source : String := "function echo(v) return v end"

/-- The function that returns its argument. -/
def body : Script.Function := .mk 1 false [.ret [.var 0 (utf8 "v") false]]

/-- The source, compiled: the function goes into the table of global names. -/
def main : Script.Function :=
  .mk 0 true [.assign [.index (.var 0 Script.envName true) (.constant (.text "echo")) 1]
    [.function body] 1]

/-- The heap in which the source runs. -/
def loaded : Heap := { Machine.start with closures := #[⟨main, [0]⟩] }

/-- The heap that the source leaves. -/
def ready : Heap :=
  { loaded with
    tables := loaded.tables.modify Heap.globalsId (·.set (.text "echo") (.closure 1))
    closures := #[⟨main, [0]⟩, ⟨body, [0]⟩] }

theorem compile_source : compile source = .ok main := by rfl

theorem run_main : Machine.run (.closure 0) [] loaded = .ok [] ready := by
  have entered (call : Script.Call) : Machine.enter call (loaded.closures.getD 0 default)
      [⟨none, none⟩] [] loaded = .ok (.next [0]) ready := by rfl
  exact Machine.run_closure entered rfl

theorem runMain_main : runMain main = .ok ([], ready) := by
  have made : Machine.load main Machine.start = .ok (.closure 0) loaded := by rfl
  simp only [runMain, outcome, bind, EStateM.bind, made, run_main]

/-- The name stands for the function in what the source leaves. -/
theorem index_ready (context : Script.Context) :
    context.index none (.table Heap.globalsId) (.text "echo") ready =
      .ok (.closure 1) ready := by rfl

/-- The function gives its argument back, and keeps it in a cell. -/
theorem run_body {h : Heap} {id : Nat} {cells : List Nat}
    (here : h.closures.getD id default = ⟨body, cells⟩) (value : Datum) :
    Machine.run (.closure id) [value] h = .ok [value] { h with cells := h.cells.push value } := by
  have entered (call : Script.Call) : Machine.enter call (h.closures.getD id default)
      [⟨none, none⟩] [value] h = .ok (.returned [(h.cells.push value).getD h.cells.size .nil])
        { h with cells := h.cells.push value } := by
    rw [here]
    rfl
  have kept : (h.cells.push value).getD h.cells.size .nil = value := by simp
  rw [kept] at entered
  exact Machine.run_closure entered rfl

end Echo

theorem pushArguments_singleton {h h' : Heap} {value : Value} {tree : Tree} {datum : Datum}
    (lowered : lower value = .ok tree) (pushed : push h tree = .ok (datum, h')) :
    pushArguments h [value] = .ok ([datum], h') := by
  simp only [pushArguments, lowered, pushed, bind, Except.bind]
  rfl

theorem raiseReturn_of_notNil {tree : Tree} (there : tree.isNil = false) :
    raiseReturn (some tree) = raise tree := by
  cases tree <;> first | rfl | cases there

/-- What a value crosses to is what the function returns for it. -/
theorem invoke_body {h : Heap} {id : Nat} {cells : List Nat} {value result : Value}
    (here : h.closures.getD id default = ⟨Echo.body, cells⟩) (known : value.Known)
    (notNull : value.isNull = false) (crosses : Crosses value result) :
    invoke h (.closure id) [value] = .ok result := by
  obtain ⟨tree, lowered, portable, indexed⟩ := exists_lower known
  obtain ⟨datum, h', pushed⟩ := exists_push portable indexed h
  obtain ⟨grown, stands⟩ := push_stands tree h datum h' pushed
  have here' : h'.closures.getD id default = ⟨Echo.body, cells⟩ := grown.closures ▸ here
  have ran := Echo.run_body here' datum
  have back : read { h' with cells := h'.cells.push datum } datum = .ok (settle tree) := by
    refine stands.read _ _ [] (fun _ _ _ => rfl) ?_ (by simp)
    show h'.tables.size ≤ h.tables.size + (h'.tables.size + 1)
    omega
  obtain ⟨other, lowered', raised⟩ := crosses
  rw [lowered] at lowered'
  cases lowered'
  have there : (settle tree).isNil = false := by
    rw [settle_isNil, isNil_of_lower lowered, notNull]
  simp only [invoke, pushArguments_singleton lowered pushed, outcome, ran, back, bind, Except.bind,
    Except.map, raiseReturn_of_notNil there, raised]

theorem callGlobal_source {value result : Value} (known : value.Known)
    (notNull : value.isNull = false) (crosses : Crosses value result) :
    callGlobal Echo.source "echo" [value] = .ok result := by
  have invoked : invoke Echo.ready (.closure 1) [value] = .ok result :=
    invoke_body rfl known notNull crosses
  simp only [callGlobal, Echo.compile_source, Echo.runMain_main, outcome, Echo.index_ready, invoked,
    bind, Except.bind, Datum.isFunction, if_true]

end ScriptHost.Engine
