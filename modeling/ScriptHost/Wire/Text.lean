import ScriptHost.Number.Reading
import ScriptHost.Value.Plain
import ScriptHost.Wire.Container

set_option autoImplicit false

namespace ScriptHost.Wire.Text

/-- Reads a document that holds no others. -/
def readScalar (raw : Json) (ty : Ty) : Decoded Value :=
  match ty, raw with
  | .dynamic, _ => refuse (.malformed raw.kind)
  | .bool, .bool value => .ok (.bool value)
  | .number, .integer value => .ok (.ofInt value)
  | .number, .float value => .ok (.number value)
  | .number, .string text =>
      match Binary64.ofPaddedText? text with
      | some x => .ok (.number x)
      | none => refuse (.notANumber text)
  | .string, .string text => .ok (.string text)
  | _, _ => refuse (.required ty raw.kind)

/-- Reads the attributes of an object type in their order. -/
def readAttributes (fields : List (String × (Ty → Decoded Value))) :
    List (String × Ty) → Decoded (List (String × Value))
  | [] => .ok []
  | (name, declared) :: rest =>
      match Dict.get? fields name with
      | none => refuse (.missingAttribute name)
      | some reader =>
          match under (.name name) (reader declared) with
          | .error failure => .error failure
          | .ok value => (readAttributes fields rest).map ((name, value) :: ·)

/-- The type that the notation in a dynamic object declares. -/
def declaredType (noted : Json) : Decoded Ty :=
  match Ty.ofJson noted with
  | .error fault => refuse (.type fault)
  | .ok .dynamic => refuse .dynamicType
  | .ok ty => .ok ty

/-- Reads an object that carries a value with its type. -/
def readDynamic (type : Option Json) (value : Option (Ty → Decoded Value)) : Decoded Value :=
  match type, value with
  | some type, some reader =>
      match declaredType type with
      | .error failure => .error failure
      | .ok ty => reader ty
  | _, _ => refuse .missingField

/-- Reads the fields of an object under a type other than dynamic. -/
def readObject (ty : Ty) (fields : List (String × (Ty → Decoded Value))) : Decoded Value :=
  match ty with
  | .map element =>
      (collectNamed (fields.map fun (key, reader) => (key, reader element))).map .map
  | .object attributes =>
      match (Dict.keys fields).find? fun key => !Dict.contains attributes key with
      | some extra => refuse (.unsupportedAttribute extra)
      | none => (readAttributes fields attributes).map .object
  | _ => refuse (.required ty "object")

mutual

/-- The value that a document stands for under a type. -/
def read : Json → Ty → Decoded Value
  | .null, _ => .ok .null
  | .array items, ty =>
      match ty with
      | .dynamic => refuse (.malformed "array")
      | _ => readArray ty (readers items)
  | .object fields, ty =>
      match ty with
      | .dynamic => readDynamic (Dict.get? fields "type") (Dict.get? (fieldReaders fields) "value")
      | _ => readObject ty (fieldReaders fields)
  | scalar, ty => readScalar scalar ty

def readers : List Json → List (Ty → Decoded Value)
  | [] => []
  | item :: rest => read item :: readers rest

def fieldReaders : List (String × Json) → List (String × (Ty → Decoded Value))
  | [] => []
  | (key, value) :: rest => (key, read value) :: fieldReaders rest

end

/-- Reads bytes that hold one document of a type. -/
def decode (bytes : List UInt8) (ty : Ty) : Decoded Value :=
  match Json.parse bytes with
  | .error error => refuse (.textDocument error)
  | .ok raw => read raw ty

def writeNumber (x : Binary64) : Encoded Json :=
  match x.integral with
  | some n => .ok (.integer n)
  | none => if x.isFinite then .ok (.float x) else refuse (.notFinite x)

/-- Writes a value where any type may stand: under a dynamic type it travels with its own. -/
def writeUnder (value : Value) (writer : Ty → Encoded Json) (ty : Ty) : Encoded Json :=
  match ty with
  | .dynamic =>
      match value with
      | .null => .ok .null
      | _ => (writer value.ty).map fun inner =>
          .object [("type", value.ty.toJson), ("value", inner)]
  | _ => writer ty

mutual

/-- The document of a value under a type other than dynamic. -/
def write : Value → Ty → Encoded Json
  | .null, _ => .ok .null
  | .unknown _, _ => refuse .notKnown
  | .bool value, ty => if ty = .bool then .ok (.bool value) else refuse (.mismatch "bool" ty)
  | .number value, ty => if ty = .number then writeNumber value else refuse (.mismatch "number" ty)
  | .string value, ty =>
      if ty = .string then .ok (.string value) else refuse (.mismatch "string" ty)
  | .list items, ty => writeItems .array "list" (writers items) ty
  | .set items, ty => writeItems .array "set" (writers items) ty
  | .tuple items, ty => writeItems .array "tuple" (writers items) ty
  | .map entries, ty => writeEntries .null .object "map" (entryWriters entries) ty
  | .object entries, ty => writeEntries .null .object "object" (entryWriters entries) ty

def writers : List Value → List (Ty → Encoded Json)
  | [] => []
  | item :: rest => writeUnder item (write item) :: writers rest

def entryWriters : List (String × Value) → List (String × (Ty → Encoded Json))
  | [] => []
  | (key, value) :: rest => (key, writeUnder value (write value)) :: entryWriters rest

end

/-- The document of a value under any type. -/
def document (value : Value) (ty : Ty) : Encoded Json := writeUnder value (write value) ty

/-- The bytes of a value under a type. -/
def encode (value : Value) (ty : Ty) : Encoded (List UInt8) := (document value ty).map Json.render

end ScriptHost.Wire.Text
