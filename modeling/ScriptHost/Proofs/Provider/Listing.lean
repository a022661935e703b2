import ScriptHost.Proofs.Provider.Runs

set_option autoImplicit false

namespace ScriptHost.Provider

/-- The signatures of the functions, by name. -/
def listing (p : Provider) : List (String × Signature) :=
  p.functions.map fun f => (f.1, f.2.signature)

/-- What a call under a signature comes to: its arguments are bound under the signature, a body runs
for their values, and what it returns is encoded as the signature says. -/
inductive Called (s : Signature) (body : FunctionBody) (args : List Payload) :
    Except CallFailure Payload → Prop
  | unbound {e : FunctionError} (bound : s.bind args = .error e) :
      Called s body args (.error (.function e))
  | failed {values : List Value} {e : FunctionError} (bound : s.bind args = .ok values)
      (ran : body.run values = .error e) : Called s body args (.error (.function e))
  | unencoded {values : List Value} {result : Value} {e : Wire.Error}
      (bound : s.bind args = .ok values) (ran : body.run values = .ok result)
      (encoded : Wire.encode result s.returnType = .error e) :
      Called s body args (.error (.function e.toFunctionError))
  | returned {values : List Value} {result : Value} {payload : Payload}
      (bound : s.bind args = .ok values) (ran : body.run values = .ok result)
      (encoded : Wire.encode result s.returnType = .ok payload) : Called s body args (.ok payload)

variable {p : Provider} {name : String} {f : ProvidedFunction} {args : List Payload}

theorem call_of_find? (found : p.find? name = some f) :
    p.call name args = (f.run args).mapError .function := by
  rw [call, found]

/-- A function that runs does so under its own signature. -/
theorem called_run (f : ProvidedFunction) (args : List Payload) :
    Called f.signature f.body args ((f.run args).mapError .function) := by
  rw [ProvidedFunction.run]
  cases bound : f.signature.bind args with
  | error e => exact .unbound bound
  | ok values =>
      dsimp only
      cases ran : f.body.run values with
      | error e => exact .failed bound ran
      | ok result =>
          dsimp only
          cases encoded : Wire.encode result f.signature.returnType with
          | error e => exact .unencoded bound ran encoded
          | ok payload => exact .returned bound ran encoded

theorem called_of_find? (found : p.find? name = some f) :
    Called f.signature f.body args (p.call name args) := by
  rw [call_of_find? found]
  exact called_run f args

/-- Only a name that stands for nothing is unknown: a function fails as a function. -/
theorem call_eq_unknownFunction_iff :
    p.call name args = .error (.unknownFunction name) ↔ p.find? name = none := by
  constructor
  · intro unknown
    cases found : p.find? name with
    | none => rfl
    | some f =>
        rw [call_of_find? found] at unknown
        cases outcome : f.run args with
        | error e => simp [outcome, Except.mapError] at unknown
        | ok payload => simp [outcome, Except.mapError] at unknown
  · intro missing
    rw [call, missing]

theorem keys_listing (p : Provider) : Dict.keys p.listing = Dict.keys p.functions :=
  Dict.keys_map (fun f : String × ProvidedFunction => f.2.signature) p.functions

theorem not_mem_keys_listing : name ∉ Dict.keys p.listing ↔ p.find? name = none := by
  rw [keys_listing, ← Dict.get?_eq_none_iff, get?_functions]

theorem sorted_dynamics (source? : Option String) : Dict.Sorted (ofSource? source?).dynamics := by
  cases source? with
  | none => exact Dict.sorted_nil
  | some source => exact Dict.sorted_ofList _

/-- Each name is listed once. -/
theorem sorted_listing (sorted : Dict.Sorted p.dynamics) : Dict.Sorted p.listing :=
  (Dict.sorted_map ProvidedFunction.signature).mpr (Dict.sorted_insert sorted)

/-- The listing shows the signature of the function that a name calls. -/
theorem mem_listing (sorted : Dict.Sorted p.dynamics) {s : Signature} :
    (name, s) ∈ p.listing ↔ ∃ f, p.find? name = some f ∧ f.signature = s := by
  have listed (f : ProvidedFunction) : (name, f) ∈ p.functions ↔ p.find? name = some f := by
    rw [← get?_functions, Dict.get?_eq_some_iff]
    exact (Dict.sorted_insert sorted).nodup
  simp [listing, listed]

theorem find?_of_mem_statics (static : (name, f) ∈ statics) : p.find? name = some f := by
  rw [statics, List.mem_singleton] at static
  cases static
  exact find?_execName p

/-- The function of a name is always there, or it is what the source declares under a name that no
other function has. -/
theorem origin_of_find? {source? : Option String}
    (found : (ofSource? source?).find? name = some f) :
    (name, f) ∈ statics ∨ name ∉ Dict.keys statics ∧
      ∃ source, source? = some source ∧ name ∈ discover source ∧ f = ofDeclaration source name := by
  rw [find?] at found
  cases static : Dict.get? statics name with
  | some g =>
      rw [static, Option.some_or] at found
      cases found
      exact .inl (Dict.mem_of_get? static)
  | none =>
      rw [static, Option.none_or] at found
      exact .inr ⟨Dict.get?_eq_none_iff.mp static,
        mem_dynamics_ofSource?.mp (Dict.mem_of_get? found)⟩

/-- At any time a call is refused for its name exactly if the name is not listed, and else it calls
the function of which the signature is listed. That function is one of those that are always there,
or the declaration of the name in the latest source where none of those has the name. -/
theorem called_of_listed (operations : List Operation) (name : String) (args : List Payload) :
    let (trace, p) := empty.run operations
    Dict.Sorted p.listing ∧
      (p.call name args = .error (.unknownFunction name) ↔ name ∉ Dict.keys p.listing) ∧
      (∀ s, (name, s) ∈ p.listing → ∃ f : ProvidedFunction, f.signature = s ∧
        Called f.signature f.body args (p.call name args) ∧
          ((name, f) ∈ statics ∨ name ∉ Dict.keys statics ∧ ∃ source,
            latest none trace = some source ∧ name ∈ discover source ∧
              f = ofDeclaration source name)) ∧
      ∀ f, (name, f) ∈ statics → (name, f.signature) ∈ p.listing ∧
        Called f.signature f.body args (p.call name args) := by
  have final : (empty.run operations).2 = ofSource? (latest none (empty.run operations).1) :=
    run_eq_ofSource? operations none
  generalize empty.run operations = done at final
  obtain ⟨trace, p⟩ := done
  dsimp only at final ⊢
  have sorted : Dict.Sorted p.dynamics := final ▸ sorted_dynamics _
  refine ⟨sorted_listing sorted, ?_, fun s listed => ?_, fun f static => ?_⟩
  · rw [call_eq_unknownFunction_iff, not_mem_keys_listing]
  · obtain ⟨f, found, shown⟩ := (mem_listing sorted).mp listed
    exact ⟨f, shown, called_of_find? found, origin_of_find? (final ▸ found)⟩
  · have found : p.find? name = some f := find?_of_mem_statics static
    exact ⟨(mem_listing sorted).mpr ⟨f, found, rfl⟩, called_of_find? found⟩

end ScriptHost.Provider
