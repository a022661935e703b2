import ScriptHost.Http.Service
import ScriptHost.Proofs.Http.CallRequest
import ScriptHost.Proofs.Http.Path
import ScriptHost.Proofs.Provider.Listing
import ScriptHost.Proofs.Wire.Limits
import ScriptHost.Proofs.Wire.Transport

set_option autoImplicit false

namespace ScriptHost

namespace Payload

/-- The binary form of a payload alone. -/
def withoutText (p : Payload) : Payload := .ofBinary p.binary

theorem decode_withoutText {p : Payload} (there : p.binary ≠ []) (ty : Ty) :
    Wire.decode p.withoutText ty = Wire.decode p ty :=
  (Wire.decode_binary (p := p.withoutText) there ty).trans (Wire.decode_binary there ty).symm

/-- What a payload with a binary form is written as stands for that form. -/
theorem exists_bears {p : Payload} (there : p.binary ≠ []) :
    ∃ document, p.toJson = .ok document ∧ CallRequest.Bears document p.withoutText := by
  obtain ⟨symbols, text, written⟩ := toJson_binary there
  refine ⟨_, written, canonical_field (.string symbols), ?_, ofJson_binary text⟩
  have flat : (Json.string symbols).depth = 0 := by simp [Json.depth]
  rw [depth_field, flat]
  decide

/-- A document that stands for a payload in a request does so alone as well. -/
theorem parse_render_of_bears {document : Json} {p : Payload}
    (bears : CallRequest.Bears document p) : parse document.render = .ok p := by
  have shallow : document.depth ≤ Json.depthLimit :=
    bears.shallow.trans (Nat.sub_le Json.depthLimit 2)
  exact parse_of_ofJson bears.canonical shallow bears.made

variable {payloads : List Payload}

/-- Payloads in their binary form are written one by one. -/
theorem exists_documents (there : ∀ payload ∈ payloads, payload.binary ≠ []) :
    ∃ documents, payloads.mapM toJson = .ok documents ∧
      List.Forall₂ CallRequest.Bears documents (payloads.map withoutText) := by
  induction payloads with
  | nil => exact ⟨[], rfl, .nil⟩
  | cons first rest ih =>
      rw [List.forall_mem_cons] at there
      obtain ⟨document, written, bears⟩ := exists_bears there.1
      obtain ⟨documents, others, bear⟩ := ih there.2
      refine ⟨document :: documents, ?_, .cons bears bear⟩
      rw [List.mapM_cons, written, others]
      rfl

end Payload

section Calls

variable {args : List Payload}

theorem Signature.bindArgument_withoutText (s : Signature) (position : Nat) {p : Payload}
    (there : p.binary ≠ []) :
    s.bindArgument position p.withoutText = s.bindArgument position p := by
  simp only [bindArgument, Payload.decode_withoutText there]

theorem Signature.bindFrom_withoutText (s : Signature) (position : Nat)
    (there : ∀ payload ∈ args, payload.binary ≠ []) :
    s.bindFrom position (args.map Payload.withoutText) = s.bindFrom position args := by
  induction args generalizing position with
  | nil => rfl
  | cons first rest ih =>
      rw [List.forall_mem_cons] at there
      rw [List.map_cons, bindFrom, bindFrom, bindArgument_withoutText s position there.1,
        ih (position + 1) there.2]

/-- A call looks at no text form beside a binary one. -/
theorem Provider.call_withoutText (p : Provider) (name : String)
    (there : ∀ payload ∈ args, payload.binary ≠ []) :
    p.call name (args.map Payload.withoutText) = p.call name args := by
  have bound (s : Signature) : s.bind (args.map Payload.withoutText) = s.bind args := by
    rw [Signature.bind, Signature.bind, List.length_map, s.bindFrom_withoutText 0 there]
  have ran (f : ProvidedFunction) : f.run (args.map Payload.withoutText) = f.run args := by
    rw [ProvidedFunction.run, ProvidedFunction.run, bound]
  simp only [call, ran]

/-- A call has its result in the binary form alone. -/
theorem Provider.binary_of_call {p : Provider} {name : String} {result : Payload}
    (called : p.call name args = .ok result) :
    result.binary ≠ [] ∧ result.withoutText = result := by
  cases found : p.find? name with
  | none =>
      rw [call, found] at called
      cases called
  | some f =>
      have outcome : Called f.signature f.body args (p.call name args) := called_of_find? found
      rw [called] at outcome
      cases outcome with
      | returned _ _ encoded =>
          obtain ⟨raw, -, rfl⟩ := Wire.encode_eq_ok.mp encoded
          exact ⟨Wire.ofBinary_write_ne_nil raw, rfl⟩

end Calls

namespace FunctionError

/-- Fields that hold the parts of a failure. -/
structure ToldBy (e : FunctionError) (fields : List (String × Json)) : Prop where
  kind : Dict.get? fields "kind" = some (.string e.kind.name)
  text : Dict.get? fields "text" = some (.string e.text)
  argument : Dict.get? fields "argument" =
    some (e.argument.elim .null fun position => .integer position)

theorem exists_fields (e : FunctionError) :
    ∃ fields, e.toJson = .object fields ∧ e.ToldBy fields := by
  refine ⟨_, rfl, rfl, rfl, ?_⟩
  cases e.argument <;> rfl

/-- The parts of a failure tell it from all others. -/
theorem eq_of_toldBy {e other : FunctionError} {fields : List (String × Json)}
    (told : e.ToldBy fields) (also : other.ToldBy fields) : e = other := by
  have names : e.kind.name = other.kind.name :=
    Json.string.inj (Option.some.inj (told.kind.symm.trans also.kind))
  have kinds : e.kind = other.kind := by
    have read := congrArg ErrorKind.ofName? names
    rw [ErrorKind.ofName?_name, ErrorKind.ofName?_name] at read
    exact Option.some.inj read
  have texts : e.text = other.text :=
    Json.string.inj (Option.some.inj (told.text.symm.trans also.text))
  have positions : e.argument = other.argument := by
    have same := Option.some.inj (told.argument.symm.trans also.argument)
    cases first : e.argument <;> cases second : other.argument <;> simp_all
  cases e
  cases other
  simp only [mk.injEq]
  exact ⟨kinds, texts, positions⟩

end FunctionError

namespace HttpResponse

/-- A response tells the outcome of a call: a result by the document that stands for it, a failure
of the function by its parts, and a name that is unknown by its status. -/
def Tells (r : HttpResponse) : Except CallFailure Payload → Prop
  | .ok result => ∃ document, r = ⟨200, .json (.object [("result", document)])⟩ ∧
      Payload.ofJson document = .ok result ∧ Payload.parse document.render = .ok result
  | .error (.function e) => ∃ fields, r = ⟨200, .json (.object [("error", .object fields)])⟩ ∧
      e.ToldBy fields
  | .error (.unknownFunction name) => r = ⟨404, .text ("error: unknown function " ++ name)⟩

theorem document_of_field {name : String} {document other : Json}
    (same : (⟨200, .json (.object [(name, document)])⟩ : HttpResponse) =
      ⟨200, .json (.object [(name, other)])⟩) : document = other := by
  simpa using same

/-- A response tells no more than one outcome. -/
theorem eq_of_tells {r : HttpResponse} {outcome other : Except CallFailure Payload}
    (tells : r.Tells outcome) (also : r.Tells other) : outcome = other := by
  match outcome, other with
  | .ok result, .ok result' =>
      obtain ⟨document, rfl, made, -⟩ := tells
      obtain ⟨document', same, made', -⟩ := also
      rw [← document_of_field same] at made'
      rw [Except.ok.inj (made.symm.trans made')]
  | .error (.function e), .error (.function e') =>
      obtain ⟨fields, rfl, told⟩ := tells
      obtain ⟨fields', same, told'⟩ := also
      rw [← Json.object.inj (document_of_field same)] at told'
      rw [FunctionError.eq_of_toldBy told told']
  | .error (.unknownFunction name), .error (.unknownFunction name') =>
      rw [Tells] at tells also
      simpa [tells] using also
  | .ok _, .error (.function _) | .error (.function _), .ok _ =>
      obtain ⟨_, rfl, _⟩ := tells
      obtain ⟨_, same, _⟩ := also
      simp at same
  | .ok _, .error (.unknownFunction _) | .error (.function _), .error (.unknownFunction _) =>
      obtain ⟨_, rfl, _⟩ := tells
      simp [Tells] at also
  | .error (.unknownFunction _), .ok _ | .error (.unknownFunction _), .error (.function _) =>
      obtain ⟨_, rfl, _⟩ := also
      simp [Tells] at tells

end HttpResponse

namespace Provider

/-- The answer to a call tells its outcome. -/
theorem tells_callResponse (p : Provider) (name : String) (args : List Payload) :
    (callResponse (p.call name args)).Tells (p.call name args) := by
  cases outcome : p.call name args with
  | ok result =>
      obtain ⟨there, alone⟩ := binary_of_call outcome
      obtain ⟨document, written, bears⟩ := Payload.exists_bears there
      rw [alone] at bears
      rw [callResponse, written]
      exact ⟨document, rfl, bears.made, Payload.parse_render_of_bears bears⟩
  | error failure =>
      cases failure with
      | function e =>
          obtain ⟨fields, written, told⟩ := e.exists_fields
          rw [callResponse, written]
          exact ⟨fields, rfl, told⟩
      | unknownFunction name =>
          show HttpResponse.notFound ("error: " ++ ("unknown function " ++ name)) = _
          rw [← String.append_assoc]
          rfl

theorem readRequest_of_parse {body : List UInt8} {request : CallRequest}
    (parsed : CallRequest.parse body = .ok request) :
    readRequest (some "application/json") body = .ok request := by
  have type : ((some "application/json").bind MediaType.ofText?).any MediaType.isJson = true := by
    decide
  rw [readRequest, if_pos type, parsed]

theorem exists_readRequest_error {body : List UInt8} (contentType : Option String)
    (invalid : ∀ request, CallRequest.parse body ≠ .ok request) :
    ∃ message, readRequest contentType body = .error message := by
  rw [readRequest]
  by_cases type : (contentType.bind MediaType.ofText?).any MediaType.isJson = true
  · rw [if_pos type]
    cases parsed : CallRequest.parse body with
    | ok request => exact absurd parsed (invalid request)
    | error failure => exact ⟨_, rfl⟩
  · rw [if_neg type]
    exact ⟨_, rfl⟩

/-- A request that was written is answered as the call is. -/
theorem respond_document (p : Provider) {name : String} {documents : List Json}
    {found : List Payload} (plain : ∀ c ∈ name.toList, Discover.isNameChar c = true)
    (bear : List.Forall₂ CallRequest.Bears documents found) :
    p.respond ⟨"POST", Endpoint.callPath name, some "application/json",
        (CallRequest.document documents).render⟩ = callResponse (p.call name found) := by
  rw [respond, Endpoint.ofPath?_callPath plain]
  simp only [if_true]
  rw [answerCall, pathText?_of_plain plain]
  simp only [readRequest_of_parse (CallRequest.parse_render bear)]

/-- Where a body holds no request, the answer owes nothing to the provider, not even to the name. -/
theorem exists_badRequest (segment : String) (contentType : Option String) {body : List UInt8}
    (invalid : ∀ request, CallRequest.parse body ≠ .ok request) :
    ∃ message, ∀ p : Provider, p.answerCall segment contentType body = .badRequest message := by
  simp only [answerCall]
  cases pathText? segment with
  | none => exact ⟨_, fun _ => rfl⟩
  | some name =>
      obtain ⟨message, refused⟩ := exists_readRequest_error contentType invalid
      rw [refused]
      exact ⟨_, fun _ => rfl⟩

/-- The response to a call over the route tells the outcome of the call itself and no other one, for
all payloads in their binary form. Where a body holds no request, the response is a refusal that no
provider has a part in, whatever function the path names. -/
theorem respond_call (p : Provider) {name : String}
    (plain : ∀ c ∈ name.toList, Discover.isNameChar c = true) {payloads : List Payload}
    (there : ∀ payload ∈ payloads, payload.binary ≠ []) :
    (∃ documents, payloads.mapM Payload.toJson = .ok documents ∧
      ∀ outcome, (p.respond ⟨"POST", "/api/functions/" ++ name ++ "/call", some "application/json",
          (Json.object [("arguments", .array documents)]).render⟩).Tells outcome ↔
        outcome = p.call name payloads) ∧
    ∀ (path segment : String) (contentType : Option String) (body : List UInt8),
      Endpoint.ofPath? path = some (.call segment) →
      (∀ request, CallRequest.parse body ≠ .ok request) →
        ∃ message, ∀ other : Provider,
          other.respond ⟨"POST", path, contentType, body⟩ = ⟨400, .text message⟩ := by
  constructor
  · obtain ⟨documents, written, bear⟩ := Payload.exists_documents there
    refine ⟨documents, written, fun outcome => ?_⟩
    have told := tells_callResponse p name payloads
    have answered := respond_document p plain bear
    rw [call_withoutText p name there] at answered
    rw [← answered] at told
    constructor
    · intro tells
      exact HttpResponse.eq_of_tells tells told
    · rintro rfl
      exact told
  · intro path segment contentType body route invalid
    obtain ⟨message, refused⟩ := exists_badRequest segment contentType invalid
    refine ⟨message, fun other => ?_⟩
    rw [respond, route]
    simp only [if_true, refused]
    rfl

/-- A call of a function with a truth value, and a list that is not closed in place of a request. -/
theorem respond_call_echo :
    let p := ofSource "function echo(v) return v end"
    let payloads := [Payload.ofBinary [195]]
    (∃ documents, payloads.mapM Payload.toJson = .ok documents ∧
      ∀ outcome,
        (p.respond ⟨"POST", "/api/functions/" ++ "echo" ++ "/call", some "application/json",
          (Json.object [("arguments", .array documents)]).render⟩).Tells outcome ↔
        outcome = p.call "echo" payloads) ∧
    ∃ message, ∀ other : Provider,
      other.respond ⟨"POST", "/api/functions/echo/call", some "application/json", utf8 "[1"⟩ =
        ⟨400, .text message⟩ := by
  intro p payloads
  have plain : ∀ c ∈ ("echo" : String).toList, Discover.isNameChar c = true :=
    List.all_eq_true.mp rfl
  have invalid : ∀ request, CallRequest.parse (utf8 "[1") ≠ .ok request := by
    intro request parsed
    have refused : (CallRequest.parse (utf8 "[1")).isOk = false := by decide
    rw [parsed] at refused
    cases refused
  have there : ∀ payload ∈ payloads, payload.binary ≠ [] := by simp [payloads, Payload.ofBinary]
  obtain ⟨told, refused⟩ := respond_call p plain there
  exact ⟨told, refused _ "echo" _ _ (Endpoint.ofPath?_callPath plain) invalid⟩

end Provider

end ScriptHost
