import ScriptHost.Declaration.Basic
import ScriptHost.Declaration.Record

set_option autoImplicit false

namespace ScriptHost

open Record

namespace Parameter

def toJson (p : Parameter) : Json :=
  .object [("name", .string p.name), ("type", p.ty.toJson), ("allow_null", .bool p.allowNull)]

def nameField : Member String := ⟨"name", text, none⟩

def typeField : Member Ty := ⟨"type", typeNotation, none⟩

def allowNullField : Member Bool := ⟨"allow_null", flag, some false⟩

def ofJson : Reader Parameter
  | .object fields => do
      checkFields [nameField.check, typeField.check, allowNullField.check] fields
      return ⟨← nameField.ofObject fields, ← typeField.ofObject fields,
        ← allowNullField.ofObject fields⟩
  | .array items => do
      let expected := "struct Parameter with 3 elements"
      let p : Parameter := ⟨← nameField.ofArray items 0 expected,
        ← typeField.ofArray items 1 expected, ← allowNullField.ofArray items 2 expected⟩
      checkLength 3 items
      return p
  | document => .error (.invalidType document "struct Parameter")

end Parameter

namespace Signature

def toJson (s : Signature) : Json :=
  .object (("parameters", .array (s.parameters.map Parameter.toJson)) ::
    (match s.variadic with
      | some p => [("variadic", p.toJson)]
      | none => []) ++
    ("return_type", s.returnType.toJson) ::
    (if s.summary = "" then [] else [("summary", .string s.summary)]))

def parametersField : Member (List Parameter) :=
  ⟨"parameters", sequence Parameter.ofJson, some []⟩

def variadicField : Member (Option Parameter) :=
  ⟨"variadic", Record.nullable Parameter.ofJson, some none⟩

def returnTypeField : Member Ty := ⟨"return_type", typeNotation, none⟩

def summaryField : Member String := ⟨"summary", text, some ""⟩

def ofJson : Reader Signature
  | .object fields => do
      checkFields [parametersField.check, variadicField.check, returnTypeField.check,
        summaryField.check] fields
      return ⟨← parametersField.ofObject fields, ← variadicField.ofObject fields,
        ← returnTypeField.ofObject fields, ← summaryField.ofObject fields⟩
  | .array items => do
      let expected := "struct FunctionSpec with 4 elements"
      let s : Signature := ⟨← parametersField.ofArray items 0 expected,
        ← variadicField.ofArray items 1 expected, ← returnTypeField.ofArray items 2 expected,
        ← summaryField.ofArray items 3 expected⟩
      checkLength 4 items
      return s
  | document => .error (.invalidType document "struct FunctionSpec")

end Signature

namespace Attribute

def toJson (a : Attribute) : Json :=
  .object ([("name", .string a.name), ("type", a.ty.toJson), ("required", .bool a.required)] ++
    (if a.description = "" then [] else [("description", .string a.description)]))

def nameField : Member String := ⟨"name", text, none⟩

def typeField : Member Ty := ⟨"type", typeNotation, none⟩

def requiredField : Member Bool := ⟨"required", flag, some false⟩

def descriptionField : Member String := ⟨"description", text, some ""⟩

def ofJson : Reader Attribute
  | .object fields => do
      checkFields [nameField.check, typeField.check, requiredField.check, descriptionField.check]
        fields
      return ⟨← nameField.ofObject fields, ← typeField.ofObject fields,
        ← requiredField.ofObject fields, ← descriptionField.ofObject fields⟩
  | .array items => do
      let expected := "struct Attribute with 4 elements"
      let a : Attribute := ⟨← nameField.ofArray items 0 expected,
        ← typeField.ofArray items 1 expected, ← requiredField.ofArray items 2 expected,
        ← descriptionField.ofArray items 3 expected⟩
      checkLength 4 items
      return a
  | document => .error (.invalidType document "struct Attribute")

end Attribute

namespace Schema

def toJson (s : Schema) : Json :=
  .object [("attributes", .array (s.attributes.map Attribute.toJson))]

def attributesField : Member (List Attribute) :=
  ⟨"attributes", sequence Attribute.ofJson, none⟩

def ofJson : Reader Schema
  | .object fields => do
      checkFields [attributesField.check] fields
      return ⟨← attributesField.ofObject fields⟩
  | .array items => do
      let s : Schema := ⟨← attributesField.ofArray items 0 "struct ProviderSchema with 1 element"⟩
      checkLength 1 items
      return s
  | document => .error (.invalidType document "struct ProviderSchema")

end Schema

namespace Severity

def ofName (name : String) : Except Fault Severity :=
  if name = "error" then .ok error
  else if name = "warning" then .ok warning
  else .error (.unknownVariant name)

/-- Reads a severity: its name, or an object with its name and nothing in it. -/
def ofJson : Reader Severity
  | .string name => ofName name
  | .object [(name, content)] => do
      let severity ← ofName name
      match content with
      | .null => return severity
      | document => .error (.invalidType document "unit")
  | .object _ => .error .notOneKey
  | document => .error (.invalidType document "string or map")

end Severity

namespace Diagnostic

def toJson (d : Diagnostic) : Json :=
  .object [("severity", .string d.severity.name), ("summary", .string d.summary),
    ("detail", .string d.detail)]

def severityField : Member Severity := ⟨"severity", Severity.ofJson, none⟩

def summaryField : Member String := ⟨"summary", text, none⟩

def detailField : Member String := ⟨"detail", text, some ""⟩

def ofJson : Reader Diagnostic
  | .object fields => do
      checkFields [severityField.check, summaryField.check, detailField.check] fields
      return ⟨← severityField.ofObject fields, ← summaryField.ofObject fields,
        ← detailField.ofObject fields⟩
  | .array items => do
      let expected := "struct Diagnostic with 3 elements"
      let d : Diagnostic := ⟨← severityField.ofArray items 0 expected,
        ← summaryField.ofArray items 1 expected, ← detailField.ofArray items 2 expected⟩
      checkLength 3 items
      return d
  | document => .error (.invalidType document "struct Diagnostic")

end Diagnostic

end ScriptHost
