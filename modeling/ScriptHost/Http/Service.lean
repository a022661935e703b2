import ScriptHost.Http.CallRequest
import ScriptHost.Http.Endpoint
import ScriptHost.Http.MediaType
import ScriptHost.Provider

set_option autoImplicit false

namespace ScriptHost

structure HttpRequest where
  method : String
  path : String
  contentType : Option String
  body : List UInt8
deriving DecidableEq, Repr

inductive HttpBody where
  | json (document : Json)
  | text (content : String)

structure HttpResponse where
  status : Nat
  body : HttpBody

namespace HttpResponse

def ok (document : Json) : HttpResponse := ⟨200, .json document⟩

def badRequest (message : String) : HttpResponse := ⟨400, .text message⟩

def notFound (message : String) : HttpResponse := ⟨404, .text message⟩

def methodNotAllowed : HttpResponse := ⟨405, .text ""⟩

def serverError (message : String) : HttpResponse := ⟨500, .text message⟩

/-- The response to a question for the header alone. -/
def withoutBody (r : HttpResponse) : HttpResponse := { r with body := .text "" }

end HttpResponse

namespace Provider

/-- The answer that tells the outcome of a call. -/
def callResponse : Except CallFailure Payload → HttpResponse
  | .ok result =>
      match result.toJson with
      | .ok document => .ok (.object [("result", document)])
      | .error e => .serverError ("error: " ++ e.message)
  | .error (.function e) => .ok (.object [("error", e.toJson)])
  | .error (.unknownFunction name) =>
      .notFound ("error: " ++ (CallFailure.unknownFunction name).message)

/-- The request in a body, or the words for why there is none. The type of the body is judged before
its bytes. -/
def readRequest (contentType : Option String) (body : List UInt8) : Except String CallRequest :=
  if (contentType.bind MediaType.ofText?).any MediaType.isJson then
    match CallRequest.parse body with
    | .ok request => .ok request
    | .error failure =>
        .error ((if failure.fault.isDocument then "Failed to parse the request body as JSON: "
          else "Failed to deserialize the JSON body into the target type: ") ++
            failure.message body)
  else .error "Expected request with `Content-Type: application/json`"

/-- The answer to a call of a function with a body. -/
def answerCall (p : Provider) (segment : String) (contentType : Option String)
    (body : List UInt8) : HttpResponse :=
  match pathText? segment with
  | none => .badRequest "Invalid URL: Invalid UTF-8 in `name`"
  | some name =>
      match readRequest contentType body with
      | .error message => .badRequest ("error: " ++ message)
      | .ok request => callResponse (p.call name request.arguments)

/-- The answer to a question for a document. -/
def answerGet (method : String) (document : Json) : HttpResponse :=
  if method = "GET" then .ok document
  else if method = "HEAD" then (HttpResponse.ok document).withoutBody
  else .methodNotAllowed

/-- The answer to a request. -/
def respond (p : Provider) (request : HttpRequest) : HttpResponse :=
  match Endpoint.ofPath? request.path with
  | none => .notFound ""
  | some .functions => answerGet request.method p.functionsJson
  | some .schema => answerGet request.method schema.toJson
  | some (.call segment) =>
      if request.method = "POST" then p.answerCall segment request.contentType request.body
      else .methodNotAllowed

end Provider

end ScriptHost
