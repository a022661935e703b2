import ScriptHost.Script.Machine

set_option autoImplicit false

namespace ScriptHost.Script

/-- What a function gives that ends without another call. -/
def Signal.results? : Signal → Option (List Datum)
  | .returned values => some values
  | .tail _ _ _ => none
  | _ => some []

namespace Machine

theorem bind_ok {α β : Type} {first : Run α} {next : α → Run β} {a : α} {h h' : Heap}
    (done : first h = .ok a h') : (first >>= next) h = next a h' := by
  simp only [bind, EStateM.bind, done]

theorem callThrough_closure {call : Call} {fuel id : Nat} {sites : List Site}
    {args values : List Datum} {signal : Signal} {h h' : Heap}
    (entered : enter call (h.closures.getD id default) sites args h = .ok signal h')
    (ends : signal.results? = some values) :
    callThrough call (fuel + 1) sites (.closure id) args h = .ok values h' := by
  have found : Run.closure id h = .ok (h.closures.getD id default) h := rfl
  rw [callThrough, bind_ok found, bind_ok entered]
  cases signal <;> cases ends <;> rfl

theorem invoke_succ (levels : Nat) (sites : List Site) (callee : Datum) (args : List Datum) :
    invoke (levels + 1) sites callee args = callThrough (invoke levels) rounds sites callee args :=
  rfl

/-- A call from outside does what the body does, whatever it could call. -/
theorem run_closure {id : Nat} {args values : List Datum} {signal : Signal} {h h' : Heap}
    (entered : ∀ call,
      enter call (h.closures.getD id default) [⟨none, none⟩] args h = .ok signal h')
    (ends : signal.results? = some values) :
    run (.closure id) args h = .ok values h' := by
  have levels : depth = 199999 + 1 := rfl
  have more : rounds = 999999999 + 1 := rfl
  rw [run, levels, invoke_succ, more]
  exact callThrough_closure (entered _) ends

end Machine

end ScriptHost.Script
