import ScriptHost.MsgPack.Writer
import ScriptHost.Number.Reading
import ScriptHost.Wire.Container

set_option autoImplicit false

namespace ScriptHost.Wire.Binary

/-- The number a document stands for; numbers past the range of floats may be texts. -/
def numberOf? : MsgPack → Option Binary64
  | .integer n => some (.ofInt n)
  | .single bits =>
      let x := Binary64.ofSingle bits
      if x.isNaN then none else some x
  | .double x => if x.isNaN then none else some x
  | .string bytes => (ofUtf8? bytes).bind Binary64.ofPaddedText?
  | _ => none

/-- Reads a document that holds no others. -/
def readScalar (raw : MsgPack) (ty : Ty) : Decoded Value :=
  match ty, raw with
  | .dynamic, _ => refuse .notAPair
  | .bool, .bool value => .ok (.bool value)
  | .number, _ =>
      match numberOf? raw with
      | some x => .ok (.number x)
      | none => refuse (.required ty raw.kind)
  | .string, _ =>
      match raw.asText? with
      | some text => .ok (.string text)
      | none => refuse (.required ty raw.kind)
  | _, _ => refuse (.required ty raw.kind)

/-- The type that the first part of a dynamic pair declares. -/
def declaredType : MsgPack → Decoded Ty
  | .binary bytes | .string bytes =>
      match Ty.ofBytes bytes with
      | .error fault => refuse (.type fault)
      | .ok .dynamic => refuse .dynamicType
      | .ok ty => .ok ty
  | _ => refuse .typeNotBytes

/-- Reads the entries of a map in the order in which they come; of two with one key the later
counts. -/
def readEntries (ty : Ty) (typeOf : String → Option Ty) (read : List (String × Value)) :
    List (MsgPack × (Ty → Decoded Value)) → Decoded (List (String × Value))
  | [] => .ok read
  | (key, reader) :: rest =>
      match key.asText? with
      | none => refuse (.keyNotText ty key)
      | some name =>
          match typeOf name with
          | none => refuse (.unsupportedAttribute name)
          | some entryType =>
              match under (.name name) (reader entryType) with
              | .error failure => .error failure
              | .ok value => readEntries ty typeOf (Dict.insert name value read) rest

/-- Requires an entry for every attribute. -/
def complete (attributes : List (String × Ty)) (entries : List (String × Value)) : Decoded Value :=
  match (Dict.keys attributes).find? fun name => !Dict.contains entries name with
  | some name => refuse (.missingAttribute name)
  | none => .ok (.object entries)

/-- Reads the entries of a map under its type. -/
def readMap (ty : Ty) (pairs : List (MsgPack × (Ty → Decoded Value))) : Decoded Value :=
  match ty with
  | .dynamic => refuse .notAPair
  | .map element => (readEntries ty (fun _ => some element) [] pairs).map .map
  | .object attributes =>
      match readEntries ty (Dict.get? attributes) [] pairs with
      | .error failure => .error failure
      | .ok entries => complete attributes entries
  | _ => refuse (.required ty "map")

mutual

/-- The value that a document stands for under a type. -/
def read : MsgPack → Ty → Decoded Value
  | .extension _ _, ty => .ok (.unknown ty)
  | .nil, _ => .ok .null
  | .array items, ty =>
      match ty with
      | .dynamic =>
          match items with
          | [type, inner] =>
              match declaredType type with
              | .error failure => .error failure
              | .ok ty => read inner ty
          | _ => refuse .notAPair
      | _ => readArray ty (readers items)
  | .map pairs, ty => readMap ty (pairReaders pairs)
  | scalar, ty => readScalar scalar ty

def readers : List MsgPack → List (Ty → Decoded Value)
  | [] => []
  | item :: rest => read item :: readers rest

def pairReaders : List (MsgPack × MsgPack) → List (MsgPack × (Ty → Decoded Value))
  | [] => []
  | (key, value) :: rest => (key, read value) :: pairReaders rest

end

/-- Reads bytes that hold one document of a type. -/
def decode (bytes : List UInt8) (ty : Ty) : Decoded Value :=
  match MsgPack.read MsgPack.depthBudget bytes with
  | .error fault => refuse (.binaryDocument fault)
  | .ok (raw, []) => read raw ty
  | .ok (_, rest) => refuse (.trailing rest.length)

/-- The document of a value that is not known. -/
def unknownDocument : MsgPack := .extension 0 [0]

def writeNumber (x : Binary64) : Encoded MsgPack :=
  if x.isNaN then refuse .notANumber
  else match x.integral with
    | some n => .ok (.integer n)
    | none => .ok (.double x)

/-- Writes a value where any type may stand: under a dynamic type it travels with its own. -/
def writeUnder (value : Value) (writer : Ty → Encoded MsgPack) (ty : Ty) : Encoded MsgPack :=
  match ty with
  | .dynamic =>
      match value with
      | .null => .ok .nil
      | .unknown .dynamic => .ok unknownDocument
      | _ => (writer value.ty).map fun inner => .array [.binary value.ty.toBytes, inner]
  | _ => writer ty

/-- The document of a map with text keys. -/
def mapDocument (entries : List (String × MsgPack)) : MsgPack :=
  .map (entries.map fun (key, value) => (.ofText key, value))

mutual

/-- The document of a value under a type other than dynamic. -/
def write : Value → Ty → Encoded MsgPack
  | .null, _ => .ok .nil
  | .unknown _, _ => .ok unknownDocument
  | .bool value, ty => if ty = .bool then .ok (.bool value) else refuse (.mismatch "bool" ty)
  | .number value, ty => if ty = .number then writeNumber value else refuse (.mismatch "number" ty)
  | .string value, ty =>
      if ty = .string then .ok (.ofText value) else refuse (.mismatch "string" ty)
  | .list items, ty => writeItems .array "list" (writers items) ty
  | .set items, ty => writeItems .array "set" (writers items) ty
  | .tuple items, ty => writeItems .array "tuple" (writers items) ty
  | .map entries, ty => writeEntries .nil mapDocument "map" (entryWriters entries) ty
  | .object entries, ty => writeEntries .nil mapDocument "object" (entryWriters entries) ty

def writers : List Value → List (Ty → Encoded MsgPack)
  | [] => []
  | item :: rest => writeUnder item (write item) :: writers rest

def entryWriters : List (String × Value) → List (String × (Ty → Encoded MsgPack))
  | [] => []
  | (key, value) :: rest => (key, writeUnder value (write value)) :: entryWriters rest

end

/-- The document of a value under any type. -/
def document (value : Value) (ty : Ty) : Encoded MsgPack := writeUnder value (write value) ty

/-- The bytes of a value under a type. -/
def encode (value : Value) (ty : Ty) : Encoded (List UInt8) := (document value ty).map MsgPack.write

end ScriptHost.Wire.Binary
