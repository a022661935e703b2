import ScriptHost.Proofs.Provider.Listing
import ScriptHost.Proofs.Wire.Path

set_option autoImplicit false

namespace ScriptHost

theorem Wire.kind_of_decode {payload : Payload} {ty : Ty} {e : Wire.Error}
    (failed : Wire.decode payload ty = .error e) : e.kind = .decode := by
  rw [Wire.decode] at failed
  split at failed
  · obtain ⟨cause, -, rfl⟩ := Wire.mapError_eq_error.mp failed
    rfl
  · split at failed
    · obtain ⟨cause, -, rfl⟩ := Wire.mapError_eq_error.mp failed
      rfl
    · cases failed
      rfl

namespace Signature

/-- An argument is read under the type of its parameter; null must be allowed there. -/
def Accepts (s : Signature) (position : Nat) (payload : Payload) (value : Value) : Prop :=
  ∃ parameter, s.parameterFor? position = some parameter ∧
    Wire.decode payload parameter.ty = .ok value ∧ (value = .null → parameter.allowNull = true)

/-- Why an argument has no value: it cannot be read, or it is null where null is not allowed. -/
inductive Refuses (s : Signature) (position : Nat) (payload : Payload) : FunctionError → Prop
  | unread {parameter : Parameter} {e : Wire.Error}
      (belongs : s.parameterFor? position = some parameter)
      (failed : Wire.decode payload parameter.ty = .error e) :
      Refuses s position payload ⟨.decode, parameter.name ++ ": " ++ e.message, some position⟩
  | null {parameter : Parameter} (belongs : s.parameterFor? position = some parameter)
      (read : Wire.decode payload parameter.ty = .ok .null) (needed : parameter.allowNull = false) :
      Refuses s position payload
        ⟨.argument, "argument " ++ quote parameter.name ++ " must not be null", some position⟩

/-- All arguments have values. -/
structure Binds (s : Signature) (args : List Payload) (values : List Value) : Prop where
  length : values.length = args.length
  each : ∀ (i : Nat) (payload : Payload) (value : Value), args[i]? = some payload →
    values[i]? = some value → s.Accepts i payload value

/-- An argument is refused, and none before it is. -/
structure FirstRefused (s : Signature) (args : List Payload) (i : Nat) (e : FunctionError) :
    Prop where
  refused : ∃ payload, args[i]? = some payload ∧ s.Refuses i payload e
  before : ∀ j < i, ∀ payload, args[j]? = some payload → ∀ e, ¬ s.Refuses j payload e

variable {s : Signature} {position : Nat} {payload : Payload} {args : List Payload} {value : Value}
  {e : FunctionError} {i : Nat}

theorem Refuses.argument (refuses : s.Refuses position payload e) : e.argument = some position := by
  cases refuses <;> rfl

theorem bindArgument_of_accepts (accepts : s.Accepts position payload value) :
    s.bindArgument position payload = .ok value := by
  obtain ⟨parameter, belongs, read, allowed⟩ := accepts
  have free : (value.isNull && !parameter.allowNull) = false := by
    cases value with
    | null => simp [allowed]
    | _ => rfl
  simp only [bindArgument, belongs, read, free, Bool.false_eq_true, if_false]

theorem bindArgument_of_refuses (refuses : s.Refuses position payload e) :
    s.bindArgument position payload = .error e := by
  cases refuses with
  | unread belongs failed =>
      simp only [bindArgument, belongs, failed, Wire.Error.toFunctionError, FunctionError.ofText,
        FunctionError.withContext, FunctionError.atArgument, Wire.kind_of_decode failed]
  | null belongs read needed =>
      simp only [bindArgument, belongs, read, needed, Value.isNull, Bool.not_false, Bool.and_true,
        if_true, FunctionError.ofArgument]

/-- An argument that belongs to a parameter has a value exactly if it is not refused. -/
theorem exists_accepts_iff {parameter : Parameter}
    (belongs : s.parameterFor? position = some parameter) :
    (∃ value, s.Accepts position payload value) ↔ ∀ e, ¬ s.Refuses position payload e := by
  constructor
  · rintro ⟨value, accepts⟩ e refuses
    have bound := bindArgument_of_accepts accepts
    rw [bindArgument_of_refuses refuses] at bound
    cases bound
  · intro free
    cases read : Wire.decode payload parameter.ty with
    | error e => exact absurd (.unread belongs read) (free _)
    | ok value =>
        refine ⟨value, parameter, belongs, read, ?_⟩
        rintro rfl
        by_contra needed
        exact free _ (.null belongs read (Bool.not_eq_true _ ▸ needed))

/-- Arguments are looked at from the first on, so that what comes after one that is refused does not
matter. -/
theorem bindFrom_of_refused (there : args[i]? = some payload)
    (refuses : s.Refuses (position + i) payload e)
    (before : ∀ j < i, ∀ payload, args[j]? = some payload →
      ∃ value, s.Accepts (position + j) payload value) :
    s.bindFrom position args = .error e := by
  induction i generalizing position args with
  | zero =>
      obtain ⟨rest, rfl⟩ : ∃ rest, args = payload :: rest := by
        cases args with
        | nil => cases there
        | cons first rest => exact ⟨rest, by rw [Option.some.inj there]⟩
      rw [Nat.add_zero] at refuses
      rw [bindFrom, bindArgument_of_refuses refuses]
  | succ i ih =>
      cases args with
      | nil => cases there
      | cons first rest =>
          obtain ⟨value, accepts⟩ := before 0 (Nat.succ_pos i) first rfl
          rw [Nat.add_zero] at accepts
          have later : s.bindFrom (position + 1) rest = .error e := by
            apply ih there
            · rw [Nat.add_right_comm]
              exact refuses
            · intro j earlier payload inRest
              rw [Nat.add_right_comm]
              exact before (j + 1) (Nat.succ_lt_succ earlier) payload inRest
          rw [bindFrom, bindArgument_of_accepts accepts, later]
          rfl

theorem bindFrom_of_accepted (all : ∀ (i : Nat) payload, args[i]? = some payload →
      ∃ value, s.Accepts (position + i) payload value) :
    ∃ values, s.bindFrom position args = .ok values ∧ values.length = args.length ∧
      ∀ (i : Nat) payload value, args[i]? = some payload → values[i]? = some value →
        s.Accepts (position + i) payload value := by
  induction args generalizing position with
  | nil => exact ⟨[], rfl, rfl, fun i payload value there => by cases there⟩
  | cons first rest ih =>
      obtain ⟨value, accepts⟩ := all 0 first rfl
      have allOthers : ∀ (i : Nat) payload, rest[i]? = some payload →
          ∃ value, s.Accepts (position + 1 + i) payload value := by
        intro i payload there
        rw [Nat.add_right_comm]
        exact all (i + 1) payload there
      obtain ⟨values, bound, length, each⟩ := ih allOthers
      refine ⟨value :: values, ?_, by rw [List.length_cons, length, List.length_cons], ?_⟩
      · rw [Nat.add_zero] at accepts
        rw [bindFrom, bindArgument_of_accepts accepts, bound]
        rfl
      · intro i payload other there here
        cases i with
        | zero =>
            cases there
            cases here
            exact accepts
        | succ i =>
            have later := each i payload other there here
            rw [Nat.add_right_comm] at later
            exact later

/-- There is a parameter for every argument. -/
def Open (s : Signature) : Prop :=
  ∀ position, ∃ parameter, s.parameterFor? position = some parameter

theorem open_of_variadic {variadic : Parameter} (more : s.variadic = some variadic) : s.Open := by
  intro position
  rw [parameterFor?]
  cases s.parameters[position]? with
  | none => exact ⟨variadic, more⟩
  | some parameter => exact ⟨parameter, rfl⟩

theorem bind_of_few (few : args.length < s.parameters.length) : s.bind args =
    .error (.ofArgument args.length ("expected at least " ++ toString s.parameters.length ++
      " arguments, got " ++ toString args.length)) := by
  rw [bind, if_pos few]

theorem bind_of_firstRefused (all : s.Open) (enough : s.parameters.length ≤ args.length)
    (first : s.FirstRefused args i e) : s.bind args = .error e := by
  obtain ⟨⟨payload, there, refuses⟩, before⟩ := first
  rw [bind, if_neg (Nat.not_lt.mpr enough)]
  rw [← Nat.zero_add i] at refuses
  refine bindFrom_of_refused there refuses fun j earlier payload inArgs => ?_
  obtain ⟨parameter, belongs⟩ := all j
  rw [Nat.zero_add]
  exact (exists_accepts_iff belongs).mpr (before j earlier payload inArgs)

theorem exists_bind (all : s.Open) (enough : s.parameters.length ≤ args.length)
    (free : ∀ i e, ¬ s.FirstRefused args i e) :
    ∃ values, s.bind args = .ok values ∧ s.Binds args values := by
  -- the least of the arguments that are refused would be the first of them
  have none (i : Nat) : ∀ payload, args[i]? = some payload → ∀ e, ¬ s.Refuses i payload e := by
    induction i using Nat.strongRecOn with
    | ind i ih => exact fun payload there e refuses => free i e ⟨⟨payload, there, refuses⟩, ih⟩
  have accepted : ∀ (i : Nat) payload, args[i]? = some payload →
      ∃ value, s.Accepts (0 + i) payload value := by
    intro i payload there
    obtain ⟨parameter, belongs⟩ := all i
    rw [Nat.zero_add]
    exact (exists_accepts_iff belongs).mpr (none i payload there)
  obtain ⟨values, bound, length, each⟩ := bindFrom_of_accepted accepted
  simp only [Nat.zero_add] at each
  refine ⟨values, ?_, length, each⟩
  rw [bind, if_neg (Nat.not_lt.mpr enough), bound]

/-- The answer to a call when something has been run for it. -/
def answer (s : Signature) : Except FunctionError Value → Except CallFailure Payload
  | .error e => .error (.function e)
  | .ok result => (Wire.encode result s.returnType).mapError fun e => .function e.toFunctionError

end Signature

namespace Provider

/-- What is run under a name for some values: a source that comes with them, or the latest source.
-/
inductive Runs (source? : Option String) :
    String → List Value → Except FunctionError Value → Prop
  | exec {source : String} {rest : List Value} :
      Runs source? execName (.string source :: rest)
        ((Engine.callReturned source rest).mapError (·.toFunctionError))
  | unknown {code : Value} {rest : List Value} (notText : ∀ source, code ≠ .string source) :
      Runs source? execName (code :: rest)
        (.error ⟨.argument, "argument \"code\" must be a string", some 0⟩)
  | global {source name : String} {values : List Value} (latest : source? = some source)
      (free : name ≠ execName) :
      Runs source? name values
        ((Engine.callGlobal source name values).mapError (·.toFunctionError))

theorem open_of_find? {source? : Option String} {name : String} {f : ProvidedFunction}
    (found : (ofSource? source?).find? name = some f) : f.signature.Open := by
  rcases origin_of_find? found with static | ⟨-, source, -, -, rfl⟩
  · rw [statics, List.mem_singleton] at static
    cases static
    exact Signature.open_of_variadic rfl
  · exact Signature.open_of_variadic rfl

/-- What is behind a name is run for the values of its arguments. -/
theorem runs_of_find? {source? : Option String} {name : String} {f : ProvidedFunction}
    {args : List Payload} {values : List Value}
    (found : (ofSource? source?).find? name = some f)
    (enough : f.signature.parameters.length ≤ args.length) (binds : f.signature.Binds args values) :
    Runs source? name values (f.body.run values) := by
  rcases origin_of_find? found with static | ⟨free, source, taken, -, rfl⟩
  · rw [statics, List.mem_singleton] at static
    cases static
    obtain ⟨code, rest, rfl⟩ : ∃ code rest, values = code :: rest := by
      apply List.exists_cons_of_length_pos
      rw [binds.length]
      exact enough
    by_cases text : ∃ source, code = .string source
    · obtain ⟨source, rfl⟩ := text
      exact .exec
    · have notText : ∀ source, code ≠ .string source := fun source same => text ⟨source, same⟩
      have unknown : execFunction.body.run (code :: rest) =
          .error ⟨.argument, "argument \"code\" must be a string", some 0⟩ := by
        cases code with
        | string source => exact absurd rfl (notText source)
        | _ => rfl
      rw [unknown]
      exact .unknown notText
  · refine .global taken fun same => free ?_
    rw [same]
    exact List.mem_singleton_self execName

theorem call_eq_answer {p : Provider} {name : String} {f : ProvidedFunction} {args : List Payload}
    {values : List Value} (found : p.find? name = some f)
    (bound : f.signature.bind args = .ok values) :
    p.call name args = f.signature.answer (f.body.run values) := by
  rw [call_of_find? found, ProvidedFunction.run, bound]
  dsimp only
  cases f.body.run values with
  | error e => rfl
  | ok result =>
      dsimp only [Signature.answer]
      cases Wire.encode result f.signature.returnType <;> rfl

theorem run_of_bind {s : Signature} {args : List Payload} {e : FunctionError}
    (bound : s.bind args = .error e) (body : FunctionBody) :
    ProvidedFunction.run ⟨s, body⟩ args = .error e := by
  rw [ProvidedFunction.run, bound]

/-- At any time a call of a function that is listed fails if there are too few arguments, or else at
the first argument that its signature refuses; and then it would fail with the same error whatever
were to be run. If there is none, exactly the values of the arguments are what is run for. -/
theorem call_bound (operations : List Operation) (name : String) (s : Signature)
    (args : List Payload) :
    let (trace, p) := empty.run operations
    (name, s) ∈ p.listing →
      (args.length < s.parameters.length →
        p.call name args = .error (.function (.ofArgument args.length
          ("expected at least " ++ toString s.parameters.length ++ " arguments, got " ++
            toString args.length)))) ∧
      (s.parameters.length ≤ args.length →
        (∀ i e, s.FirstRefused args i e →
          e.argument = some i ∧ p.call name args = .error (.function e) ∧
            ∀ body, ProvidedFunction.run ⟨s, body⟩ args = .error e) ∧
        ((∀ i e, ¬ s.FirstRefused args i e) →
          ∃ values, s.Binds args values ∧
            ∃ outcome, Runs (latest none trace) name values outcome ∧
              p.call name args = s.answer outcome)) := by
  have final : (empty.run operations).2 = ofSource? (latest none (empty.run operations).1) :=
    run_eq_ofSource? operations none
  generalize empty.run operations = done at final
  obtain ⟨trace, p⟩ := done
  dsimp only at final ⊢
  intro listed
  have sorted : Dict.Sorted p.dynamics := final ▸ sorted_dynamics _
  obtain ⟨⟨s, body⟩, found, rfl⟩ := (mem_listing sorted).mp listed
  have origin := final ▸ found
  have all : s.Open := open_of_find? origin
  have failed {e : FunctionError} (bound : s.bind args = .error e) :
      p.call name args = .error (.function e) := by
    rw [call_of_find? found, run_of_bind bound]
    rfl
  refine ⟨fun few => failed (Signature.bind_of_few few), fun enough => ⟨fun i e first => ?_,
    fun free => ?_⟩⟩
  · have bound := Signature.bind_of_firstRefused all enough first
    obtain ⟨payload, -, refuses⟩ := first.refused
    exact ⟨refuses.argument, failed bound, run_of_bind bound⟩
  · obtain ⟨values, bound, binds⟩ := Signature.exists_bind all enough free
    exact ⟨values, binds, _, runs_of_find? origin enough binds, call_eq_answer found bound⟩

/-- A code that is null is refused, whatever is to be run for the other arguments. -/
theorem call_bound_null :
    empty.call execName [.ofBinary [0xc0], .ofBinary [0xc3]] =
      .error (.function ⟨.argument, "argument \"code\" must not be null", some 0⟩) := by
  let args : List Payload := [.ofBinary [0xc0], .ofBinary [0xc3]]
  have listed : (execName, execFunction.signature) ∈ empty.listing :=
    (mem_listing Dict.sorted_nil).mpr ⟨execFunction, find?_execName empty, rfl⟩
  have belongs : execFunction.signature.parameterFor? 0 = some ⟨"code", .string, false⟩ := rfl
  have read : Wire.decode (.ofBinary [0xc0]) .string = .ok .null := rfl
  have text : "argument " ++ quote "code" ++ " must not be null" =
      "argument \"code\" must not be null" := by decide
  have refused := Signature.Refuses.null belongs read rfl
  rw [text] at refused
  have first : execFunction.signature.FirstRefused args 0
      ⟨.argument, "argument \"code\" must not be null", some 0⟩ :=
    ⟨⟨_, rfl, refused⟩, fun j early => absurd early (Nat.not_lt_zero j)⟩
  have bound := call_bound [] execName execFunction.signature args
  have enough : execFunction.signature.parameters.length ≤ args.length := by decide
  obtain ⟨-, failed, -⟩ := ((bound listed).2 enough).1 0 _ first
  exact failed

end Provider

end ScriptHost
