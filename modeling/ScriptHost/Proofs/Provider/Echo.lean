import ScriptHost.Proofs.Engine.Echo
import ScriptHost.Proofs.Engine.Stable
import ScriptHost.Proofs.Wire.Limits
import ScriptHost.Proofs.Wire.Stable
import ScriptHost.Provider

set_option autoImplicit false

namespace ScriptHost

open Value (Stable)

namespace Wire

theorem exists_encode {levels : Nat} {value : Value} (stable : Stable levels value) :
    ∃ payload, encode value .dynamic = .ok payload := by
  obtain ⟨inner, -, made⟩ := Binary.exists_document stable
  exact ⟨_, by rw [encode, encodeBinary, Binary.encode, made]; rfl⟩

theorem encode_own {levels : Nat} {value : Value} (stable : Stable levels value) (ty : Ty) :
    encode value.own ty = encode value ty := by
  rw [encode, encode, encodeBinary, encodeBinary, Binary.encode, Binary.encode,
    Binary.document_own stable]

theorem decode_encode_own {value : Value} {payload : Payload} (stable : Stable 63 value)
    (written : encode value .dynamic = .ok payload)
    (sized : ∀ raw, Binary.document value .dynamic = .ok raw → raw.Sized) :
    decode payload .dynamic = .ok value.own := by
  obtain ⟨raw, made, rfl⟩ := encode_eq_ok.mp written
  have done : Binary.encode value .dynamic = .ok raw.write := by
    rw [Binary.encode, made]
    rfl
  exact decode_ofBinary.mpr (Binary.decode_encode_stable stable done sized)

end Wire

namespace Provider

theorem find?_echo (p : Provider) :
    (p.configureSource Engine.Echo.source).2.find? "echo" =
      some (ofDeclaration Engine.Echo.source "echo") := by
  show (ofSource Engine.Echo.source).find? "echo" = _
  decide

/-- A function of a source takes an argument of any type. -/
theorem bind_ofDeclaration (source name : String) {payload : Payload} {value : Value}
    (read : Wire.decode payload .dynamic = .ok value) :
    (ofDeclaration source name).signature.bind [payload] = .ok [value] := by
  have parameter : (ofDeclaration source name).signature.parameterFor? 0 =
      some ⟨"args", .dynamic, true⟩ := rfl
  have bound : (ofDeclaration source name).signature.bindArgument 0 payload = .ok value := by
    simp only [Signature.bindArgument, parameter, read, Bool.not_true, Bool.and_false,
      Bool.false_eq_true, if_false]
  have enough : ¬ [payload].length < (ofDeclaration source name).signature.parameters.length :=
    Nat.not_lt_zero 1
  rw [Signature.bind, if_neg enough, Signature.bindFrom, bound]
  rfl

theorem bind_ofDeclaration_ne_ok (source name : String) {payload : Payload}
    (unread : ∀ value, Wire.decode payload .dynamic ≠ .ok value) (values : List Value) :
    (ofDeclaration source name).signature.bind [payload] ≠ .ok values := by
  have parameter : (ofDeclaration source name).signature.parameterFor? 0 =
      some ⟨"args", .dynamic, true⟩ := rfl
  have enough : ¬ [payload].length < (ofDeclaration source name).signature.parameters.length :=
    Nat.not_lt_zero 1
  rw [Signature.bind, if_neg enough, Signature.bindFrom, Signature.bindArgument, parameter]
  cases read : Wire.decode payload .dynamic with
  | error e => simp [read]
  | ok value => exact absurd read (unread value)

/-- A function that returns its argument gives a stable value back, in the very payload that it came
in. The length fields of the format must hold the lengths in that payload. -/
theorem call_echo {value : Value} (stable : Stable 63 value)
    (sized : ∀ raw, Wire.Binary.document value .dynamic = .ok raw → raw.Sized) (p : Provider) :
    ∃ payload, Wire.encode value .dynamic = .ok payload ∧
      ∃ result, (p.configureSource "function echo(v) return v end").2.call "echo" [payload] =
          .ok result ∧ result = payload ∧
        ∃ back, Wire.decode result .dynamic = .ok back ∧ value.equal back = true := by
  obtain ⟨payload, written⟩ := Wire.exists_encode stable
  have read := Wire.decode_encode_own stable written sized
  have called : Engine.callGlobal Engine.Echo.source "echo" [value.own] = .ok value.own :=
    Engine.callGlobal_source stable.own.known (Engine.isNull_of_stable stable.own)
      (Engine.crosses_of_stable stable.own)
  have again : Wire.encode value.own .dynamic = .ok payload := by
    rw [Wire.encode_own stable, written]
  refine ⟨payload, written, payload, ?_, rfl, value.own, read, stable.equal_own⟩
  show (p.configureSource Engine.Echo.source).2.call "echo" [payload] = _
  have ran : (ofDeclaration Engine.Echo.source "echo").run [payload] = .ok payload := by
    rw [ProvidedFunction.run, bind_ofDeclaration _ _ read]
    simp only [ofDeclaration, FunctionBody.run, called, Except.mapError, Signature.variadicDynamic,
      again]
  rw [call, find?_echo]
  simp only [ran]
  rfl

/-- A list in an object comes back in it. -/
theorem call_echo_nested :
    let value := Value.object [("k", .list [.string "x"])]
    ∃ payload, Wire.encode value .dynamic = .ok payload ∧
      ∃ result, (empty.configureSource "function echo(v) return v end").2.call "echo" [payload] =
          .ok result ∧ result = payload ∧
        ∃ back, Wire.decode result .dynamic = .ok back ∧ value.equal back = true := by
  intro value
  have stable : Stable 63 value := by
    refine .object (by simp [Dict.Sorted]) ?_ ?_
    · intro first start count pos names
      -- a run of numbers has its first one, which is no letter
      have number : toString first ∈ Dict.keys [("k", Value.list [.string "x"])] :=
        (names _).mpr (Engine.toString_mem_indexNames.mpr (by omega))
      have digit : first = 0 ∨ first = 1 := by omega
      rcases digit with rfl | rfl <;> revert number <;> decide
    · intro entry member
      rw [List.mem_singleton.mp member]
      refine .list (by simp) (by decide) fun item inside => ?_
      rw [List.mem_singleton.mp inside]
      exact .string _ _
  let raw := MsgPack.array [.binary value.ty.toBytes, .map [(.ofText "k", .array [.ofText "x"])]]
  have made : Wire.Binary.document value .dynamic = .ok raw := by rfl
  refine call_echo stable (fun other also => ?_) empty
  rw [made] at also
  rw [← Except.ok.inj also]
  exact MsgPack.sized_of_length (by decide)

/-- Not every stable value comes back: of the payload of a text as long as the limit nothing is
read, and the function is not run. -/
theorem not_call_echo_oversized :
    ¬ ∀ (value : Value) (p : Provider), Stable 63 value →
      ∃ payload, Wire.encode value .dynamic = .ok payload ∧
        ∃ result, (p.configureSource "function echo(v) return v end").2.call "echo" [payload] =
            .ok result ∧
          ∃ back, Wire.decode result .dynamic = .ok back ∧ value.equal back = true := by
  intro all
  obtain ⟨text, long⟩ := exists_text_of_length MsgPack.lengthLimit
  obtain ⟨written, made, unread⟩ := Wire.exists_encode_oversized long
  obtain ⟨payload, same, result, called, -⟩ := all (.string text) empty (.string _ _)
  obtain rfl : payload = written := Except.ok.inj (same.symm.trans made)
  have found : (empty.configureSource "function echo(v) return v end").2.find? "echo" =
      some (ofDeclaration Engine.Echo.source "echo") := find?_echo empty
  have unbound (values : List Value) := bind_ofDeclaration_ne_ok Engine.Echo.source "echo"
    (unread .dynamic) values
  rw [call, found] at called
  dsimp only at called
  rw [ProvidedFunction.run] at called
  cases bound : (ofDeclaration Engine.Echo.source "echo").signature.bind [payload] with
  | error e =>
      rw [bound] at called
      cases called
  | ok values => exact unbound values bound

end Provider

end ScriptHost
