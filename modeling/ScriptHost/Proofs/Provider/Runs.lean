import ScriptHost.Proofs.Dict
import ScriptHost.Provider

set_option autoImplicit false

/- Providers over whole runs. Whatever is asked of a provider, and in whatever order, its functions
are those of one source: of the latest that was configured without an error. A configuration that
fails keeps them all, and one that does not fail keeps none. -/
namespace ScriptHost.Provider

/-- What a provider is asked for. -/
inductive Operation where
  | configure (payload : Payload)
  | configureSource (source : String)
  | call (name : String) (args : List Payload)
  | functions
  | metadata
  | schema
  | debugText

inductive Answer where
  | diagnostics (found : List Diagnostic)
  | result (outcome : Except CallFailure Payload)
  | functions (signatures : List (String × Signature))
  | names (names : List String)
  | schema (schema : Schema)
  | text (text : String)

/-- The answer to an operation, and the provider after it. -/
def step (p : Provider) : Operation → Answer × Provider
  | .configure payload =>
      let (found, next) := p.configure payload
      (.diagnostics found, next)
  | .configureSource source =>
      let (found, next) := p.configureSource source
      (.diagnostics found, next)
  | .call name args => (.result (p.call name args), p)
  | .functions => (.functions (p.functions.map fun f => (f.1, f.2.signature)), p)
  | .metadata => (.names metadata, p)
  | .schema => (.schema schema, p)
  | .debugText => (.text p.debugText, p)

/-- All operations with their answers, and the provider in the end. -/
def run (p : Provider) : List Operation → List (Operation × Answer) × Provider
  | [] => ([], p)
  | operation :: rest =>
      let (answer, next) := p.step operation
      let (trace, last) := next.run rest
      ((operation, answer) :: trace, last)

/-- Whether an operation is a configuration. -/
def Operation.configures : Operation → Bool
  | configure _ | configureSource _ => true
  | _ => false

/-- The source that an operation hands over. -/
def Operation.source? : Operation → Option String
  | configure payload => (Wire.decode payload (.map .string)).toOption.bind sourceOf?
  | configureSource source => some source
  | _ => none

/-- Whether a configuration is answered without an error. -/
def Answer.accepts : Answer → Bool
  | diagnostics found => !found.any Diagnostic.isError
  | _ => false

/-- The source of the last configuration without an error, or else one from before. -/
def latest (source? : Option String) : List (Operation × Answer) → Option String
  | [] => source?
  | (operation, answer) :: rest =>
      latest (if answer.accepts then operation.source? else source?) rest

theorem isError_of_mem_review {source : String} {diagnostic : Diagnostic}
    (member : diagnostic ∈ review source) : diagnostic.isError = false := by
  rw [review, List.mem_append] at member
  rcases member with syntactic | empty
  · split at syntactic
    · rw [List.mem_singleton.mp syntactic]
      rfl
    · cases syntactic
  · split at empty
    · rw [List.mem_singleton.mp empty]
      rfl
    · cases empty

/-- No source is refused for what is in it. -/
theorem accepts_review (source : String) : (Answer.diagnostics (review source)).accepts = true := by
  rw [Answer.accepts, Bool.not_eq_true', List.any_eq_false]
  intro diagnostic member
  rw [isError_of_mem_review member]
  exact Bool.false_ne_true

theorem accepts_invalidPayload (detail : String) :
    (Answer.diagnostics (invalidPayload detail)).accepts = false := rfl

/-- An operation takes a source in place of all that was there, or leaves everything as it is. -/
theorem step_cases (p : Provider) (operation : Operation) :
    (∃ source, operation.source? = some source ∧ (p.step operation).1.accepts = true ∧
        (p.step operation).2 = ofSource source) ∨
      ((p.step operation).1.accepts = false ∧ (p.step operation).2 = p) := by
  cases operation with
  | configure payload =>
      rw [step, configure, Operation.source?]
      cases decoded : Wire.decode payload (.map .string) with
      | error e => exact .inr ⟨rfl, rfl⟩
      | ok value =>
          cases found : sourceOf? value with
          | none => exact .inr ⟨by simp [found, accepts_invalidPayload], by simp [found]⟩
          | some source =>
              refine .inl ⟨source, found, ?_, ?_⟩
              · simp [found, configureSource, accepts_review]
              · simp [found, configureSource]
  | configureSource source => exact .inl ⟨source, rfl, accepts_review source, rfl⟩
  | _ => exact .inr ⟨rfl, rfl⟩

theorem step_of_not_configures {p : Provider} {operation : Operation}
    (reads : operation.configures = false) : (p.step operation).2 = p := by
  cases operation with
  | configure | configureSource => cases reads
  | _ => rfl

/-- The provider that has taken a source, if there is one. -/
def ofSource? : Option String → Provider
  | some source => ofSource source
  | none => empty

/-- A run ends with the functions of the latest source. -/
theorem run_eq_ofSource? (operations : List Operation) (source? : Option String) :
    ((ofSource? source?).run operations).2 =
      ofSource? (latest source? ((ofSource? source?).run operations).1) := by
  induction operations generalizing source? with
  | nil => rfl
  | cons operation rest ih =>
      rcases step_cases (ofSource? source?) operation with ⟨source, handed, accepted, next⟩ | kept
      · have later := ih (some source)
        simp only [run, next, latest, accepted, handed, if_true]
        exact later
      · obtain ⟨refused, next⟩ := kept
        have later := ih source?
        simp only [run, next, latest, refused, Bool.false_eq_true, if_false]
        exact later

/-- Calls and listings can be left out of a run. -/
theorem run_filter (operations : List Operation) (p : Provider) :
    (p.run (operations.filter Operation.configures)).2 = (p.run operations).2 := by
  induction operations generalizing p with
  | nil => rfl
  | cons operation rest ih =>
      cases kind : operation.configures with
      | true =>
          rw [List.filter_cons_of_pos kind]
          exact ih _
      | false =>
          rw [List.filter_cons_of_neg (by simp [kind])]
          simp only [run, step_of_not_configures kind]
          exact ih p

theorem mem_dynamics_ofSource {source name : String} {f : ProvidedFunction} :
    (name, f) ∈ (ofSource source).dynamics ↔
      name ∈ discover source ∧ f = ofDeclaration source name := by
  have agree : Dict.Agree ((discover source).map fun name =>
      (name, ofDeclaration source name)) := by
    simp only [Dict.Agree, List.forall_mem_map]
    rintro name - other - rfl
    rfl
  rw [ofSource, ← Dict.get?_eq_some_iff (Dict.sorted_ofList _).nodup,
    Dict.get?_ofList_eq_some_iff agree, List.mem_map]
  simp [eq_comm]

/-- The functions of a provider are those of its source. -/
theorem mem_dynamics_ofSource? {source? : Option String} {name : String} {f : ProvidedFunction} :
    (name, f) ∈ (ofSource? source?).dynamics ↔
      ∃ source, source? = some source ∧ name ∈ discover source ∧ f = ofDeclaration source name := by
  cases source? with
  | none => simp [ofSource?, empty]
  | some source => simp [ofSource?, mem_dynamics_ofSource]

theorem mem_keys_dynamics {source? : Option String} {name : String} :
    name ∈ Dict.keys (ofSource? source?).dynamics ↔
      ∃ source, source? = some source ∧ name ∈ discover source := by
  rw [Dict.keys, List.mem_map]
  constructor
  · rintro ⟨⟨name, f⟩, member, rfl⟩
    obtain ⟨source, taken, declared, -⟩ := mem_dynamics_ofSource?.mp member
    exact ⟨source, taken, declared⟩
  · rintro ⟨source, taken, declared⟩
    exact ⟨(name, ofDeclaration source name),
      mem_dynamics_ofSource?.mpr ⟨source, taken, declared, rfl⟩, rfl⟩

theorem functions_eq (p : Provider) :
    p.functions = Dict.insert execName execFunction p.dynamics := rfl

theorem find?_execName (p : Provider) : p.find? execName = some execFunction := rfl

/-- What is listed under a name is what the name calls. -/
theorem get?_functions (p : Provider) (name : String) :
    Dict.get? p.functions name = p.find? name := by
  rw [functions_eq, Dict.get?_insert]
  by_cases static : name = execName
  · rw [if_pos static, static, find?_execName]
  · have missing : Dict.get? statics name = none := by
      rw [statics, Dict.get?_cons, if_neg static, Dict.get?_nil]
    rw [if_neg static, find?, missing, Option.none_or]

/-- At any time the names of a provider are that of the function which is always there and those
that the latest source declares. What is behind a declared name is a call of that very name in that
very source, and no call or listing makes any difference to all this. -/
theorem functions_of_run (operations : List Operation) :
    let (trace, p) := empty.run operations
    (∀ name, name ∈ Dict.keys p.functions ↔
        name = execName ∨ ∃ source, latest none trace = some source ∧ name ∈ discover source) ∧
      (∀ name f, (name, f) ∈ p.dynamics → ∃ source, latest none trace = some source ∧
        name ∈ discover source ∧ f = ofDeclaration source name ∧
          ∀ values, f.body.run values =
            (Engine.callGlobal source name values).mapError (·.toFunctionError)) ∧
      (Dict.get? p.functions execName = some execFunction ∧
        ∀ name, Dict.get? p.functions name = p.find? name) ∧
      (∀ operation, operation.configures = false → (p.step operation).2 = p) ∧
        (empty.run (operations.filter Operation.configures)).2 = p := by
  have final : (empty.run operations).2 = ofSource? (latest none (empty.run operations).1) :=
    run_eq_ofSource? operations none
  have same := run_filter operations empty
  generalize empty.run operations = done at final same
  obtain ⟨trace, p⟩ := done
  dsimp only at final same ⊢
  refine ⟨fun name => ?_, fun name f member => ?_, ⟨?_, get?_functions p⟩, ?_, same⟩
  · rw [functions_eq, Dict.mem_keys_insert, final, mem_keys_dynamics]
  · rw [final] at member
    obtain ⟨source, taken, declared, rfl⟩ := mem_dynamics_ofSource?.mp member
    exact ⟨source, taken, declared, rfl, fun values => rfl⟩
  · rw [get?_functions, find?_execName]
  · intro operation reads
    exact step_of_not_configures reads

end ScriptHost.Provider
