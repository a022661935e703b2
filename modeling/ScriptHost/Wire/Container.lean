import ScriptHost.Value.Basic
import ScriptHost.Wire.Cause

set_option autoImplicit false

namespace ScriptHost.Wire

variable {δ : Type}

/-- Reads the items of an array under a type other than dynamic. -/
def readArray (ty : Ty) (items : List (Ty → Decoded Value)) : Decoded Value :=
  match ty with
  | .list element => (collect 0 (items.map (· element))).map .list
  | .set element => (collect 0 (items.map (· element))).map .set
  | .tuple elements =>
      if items.length = elements.length then
        (collect 0 (List.zipWith (fun reader element => reader element) items elements)).map .tuple
      else refuse (.tupleLength elements.length items.length)
  | _ => refuse (.required ty "array")

/-- Writes the items of a sequence of some kind as one document, made of those of the items. -/
def writeItems (array : List δ → δ) (kind : String) (items : List (Ty → Encoded δ)) (ty : Ty) :
    Encoded δ :=
  match ty with
  | .list element | .set element => (collect 0 (items.map (· element))).map array
  | .tuple elements =>
      if items.length = elements.length then
        (collect 0 (List.zipWith (fun writer element => writer element) items elements)).map array
      else refuse (.mismatch kind ty)
  | _ => refuse (.mismatch kind ty)

/-- Writes the entries of a collection of some kind as one document; `absent` stands for attributes
without an entry. -/
def writeEntries (absent : δ) (object : List (String × δ) → δ) (kind : String)
    (entries : List (String × (Ty → Encoded δ))) (ty : Ty) : Encoded δ :=
  match ty with
  | .map element =>
      (collectNamed (entries.map fun (key, writer) => (key, writer element))).map object
  | .object attributes =>
      match (Dict.keys entries).find? fun key => !Dict.contains attributes key with
      | some extra => refuse (.extraAttribute extra ty)
      | none =>
          (collectNamed (attributes.map fun (name, declared) =>
            (name, match Dict.get? entries name with
              | some writer => writer declared
              | none => .ok absent))).map object
  | _ => refuse (.mismatch kind ty)

end ScriptHost.Wire
