import ScriptHost.Proofs.Base64
import ScriptHost.Proofs.Json.Canonical
import ScriptHost.Wire

set_option autoImplicit false

namespace ScriptHost

namespace Payload

theorem canonical_field {name : String} {inner : Json} (canonical : inner.Canonical) :
    (Json.object [(name, inner)]).Canonical :=
  .object (by simp [Dict.sorted_cons, Dict.sorted_nil]) (by simpa using canonical)

theorem depth_field (name : String) (inner : Json) :
    (Json.object [(name, inner)]).depth = 1 + inner.depth := by
  simp [Json.depth, Json.depthOfFields]

/-- A payload is written as its binary form, which is a text. -/
theorem toJson_binary {p : Payload} (there : p.binary ≠ []) :
    ∃ symbols, utf8 symbols = Base64.encode p.binary ∧
      p.toJson = .ok (.object [("msgpack", .string symbols)]) := by
  obtain ⟨symbols, text⟩ := exists_ofUtf8?_of_ascii (Base64.encode_ascii p.binary)
  refine ⟨symbols, utf8_of_ofUtf8? text, ?_⟩
  rw [toJson, if_pos (by simpa using there), text]
  rfl

/-- What the binary form was written as is read as that form. -/
theorem ofJson_binary {symbols : String} {bytes : List UInt8}
    (text : utf8 symbols = Base64.encode bytes) :
    ofJson (.object [("msgpack", .string symbols)]) = .ok (.ofBinary bytes) := by
  have decoded : binaryOfField (some (.string symbols)) = .ok bytes := by
    rw [binaryOfField, text, Base64.decode_encode]
  have field : Dict.get? [("msgpack", Json.string symbols)] "msgpack" =
      some (.string symbols) := rfl
  have other : Dict.get? [("msgpack", Json.string symbols)] "json" = none := rfl
  rw [ofJson, field, other, decoded]
  rfl

/-- Without a binary form a payload is written as the document of its text form. -/
theorem toJson_text {p : Payload} (absent : p.binary = []) (there : p.text ≠ []) {document : Json}
    (written : p.toJson = .ok document) :
    ∃ inner, Json.parse p.text = .ok inner ∧ document = .object [("json", inner)] := by
  rw [toJson, if_neg (by simp [absent]), if_pos (by simpa using there)] at written
  cases parsed : Json.parse p.text with
  | error error => simp [parsed, Except.map] at written
  | ok inner =>
      rw [parsed] at written
      cases written
      exact ⟨inner, rfl, rfl⟩

/-- A document other than null is the text form when it stands in its field. -/
theorem textOfField_of_ne_null {inner : Json} (known : inner ≠ .null) :
    textOfField (some inner) = inner.render := by
  cases inner with
  | null => exact absurd rfl known
  | _ => rfl

theorem ofJson_text (inner : Json) :
    ofJson (.object [("json", inner)]) = .ok (.ofText (textOfField (some inner))) := by
  have field : Dict.get? [("json", inner)] "json" = some inner := rfl
  have other : Dict.get? [("json", inner)] "msgpack" = none := rfl
  rw [ofJson, field, other]
  rfl

theorem toJson_empty {p : Payload} (noBinary : p.binary = []) (noText : p.text = []) :
    p.toJson = .ok (.object []) := by
  rw [toJson, if_neg (by simp [noBinary]), if_neg (by simp [noText])]

/-- A payload is read from the compact form of a document as from the document itself, which the
limit on nesting must admit. -/
theorem ofJson_of_parse {document : Json} {q : Payload} (canonical : document.Canonical)
    (read : parse document.render = .ok q) :
    document.depth ≤ Json.depthLimit ∧ ofJson document = .ok q := by
  obtain ⟨fits, deep⟩ := canonical.reads Json.depthLimit [] (by simp [Json.Ends])
  rw [List.append_nil] at fits deep
  rw [parse] at read
  by_cases admitted : document.depth ≤ Json.depthLimit
  · rw [fits admitted] at read
    refine ⟨admitted, ?_⟩
    cases made : ofJson document with
    | error fault => simp [made] at read
    | ok payload =>
        simp only [made] at read
        exact read
  · obtain ⟨failure, failed, -⟩ := deep admitted
    simp [failed] at read

/-- A payload is read from the compact form of a document that stands for it, if the limit on
nesting admits the document. -/
theorem parse_of_ofJson {document : Json} {q : Payload} (canonical : document.Canonical)
    (shallow : document.depth ≤ Json.depthLimit) (made : ofJson document = .ok q) :
    parse document.render = .ok q := by
  have read := (canonical.reads Json.depthLimit [] (by simp [Json.Ends])).1 shallow
  rw [List.append_nil] at read
  rw [parse, read]
  simp only [made]
  rfl

variable {p q : Payload} {document : Json}

/-- The binary form comes back as it was; the text form beside it does not travel. -/
theorem eq_of_transported_binary (there : p.binary ≠ []) (written : p.toJson = .ok document)
    (read : parse document.render = .ok q) : q = .ofBinary p.binary := by
  obtain ⟨symbols, text, made⟩ := toJson_binary there
  obtain rfl : .object [("msgpack", .string symbols)] = document :=
    Except.ok.inj (made.symm.trans written)
  obtain ⟨-, back⟩ := ofJson_of_parse (canonical_field (.string symbols)) read
  exact (Except.ok.inj ((ofJson_binary text).symm.trans back)).symm

/-- The text form comes back as the field that its document stands in is read. -/
theorem eq_of_transported_text (absent : p.binary = []) (there : p.text ≠ [])
    (written : p.toJson = .ok document) (read : parse document.render = .ok q) :
    ∃ inner, Json.parse p.text = .ok inner ∧ inner.Canonical ∧ inner.depth ≤ Json.depthLimit ∧
      q = .ofText (textOfField (some inner)) := by
  obtain ⟨inner, parsed, rfl⟩ := toJson_text absent there written
  have canonical := Json.canonical_of_parse parsed
  obtain ⟨shallow, back⟩ := ofJson_of_parse (canonical_field canonical) read
  rw [depth_field] at shallow
  rw [ofJson_text] at back
  exact ⟨inner, parsed, canonical, by omega, (Except.ok.inj back).symm⟩

theorem eq_of_transported_empty (noBinary : p.binary = []) (noText : p.text = [])
    (written : p.toJson = .ok document) (read : parse document.render = .ok q) : q = .empty := by
  obtain rfl : .object [] = document :=
    Except.ok.inj ((toJson_empty noBinary noText).symm.trans written)
  obtain ⟨-, back⟩ := ofJson_of_parse (.object Dict.sorted_nil (by simp)) read
  exact (Except.ok.inj back).symm

end Payload

namespace Wire

/-- A document other than null is read from its field as it was. -/
theorem decode_textOfField {p : Payload} {inner : Json} (absent : p.binary = [])
    (parsed : Json.parse p.text = .ok inner) (canonical : inner.Canonical)
    (shallow : inner.depth ≤ Json.depthLimit) (known : inner ≠ .null) (ty : Ty) :
    decode (.ofText (Payload.textOfField (some inner))) ty = decode p ty := by
  have back : Json.parse (Payload.ofText inner.render).text = .ok inner :=
    (Json.parse_render canonical.reads).1 shallow
  rw [Payload.textOfField_of_ne_null known, decode_text rfl back, decode_text absent parsed]

/-- A payload that travelled holds the same values under the same types, unless it was the text form
of a bare null. -/
theorem decode_transported_iff {p q : Payload} {document : Json}
    (written : p.toJson = .ok document) (read : Payload.parse document.render = .ok q) :
    (∀ ty value, decode q ty = .ok value ↔ decode p ty = .ok value) ↔
      ¬ (p.binary = [] ∧ Json.parse p.text = .ok .null) := by
  by_cases noBinary : p.binary = []
  · by_cases noText : p.text = []
    · obtain rfl := Payload.eq_of_transported_empty noBinary noText written read
      have unread : Json.parse p.text ≠ .ok .null := by
        rw [noText]
        rintro ⟨⟩
      have same (ty : Ty) : decode .empty ty = decode p ty :=
        (decode_empty rfl rfl ty).trans (decode_empty noBinary noText ty).symm
      simp [same, unread]
    · obtain ⟨inner, parsed, canonical, shallow, rfl⟩ :=
        Payload.eq_of_transported_text noBinary noText written read
      by_cases null : inner = .null
      · -- the payload that comes back is empty
        subst null
        have lost := decode_empty (p := .ofText (Payload.textOfField (some .null))) rfl rfl .dynamic
        have before : decode p .dynamic = .ok .null := decode_text noBinary parsed .dynamic
        refine iff_of_false (fun same => ?_) (fun known => known ⟨noBinary, parsed⟩)
        have found := (same .dynamic .null).mpr before
        rw [lost] at found
        cases found
      · have same := decode_textOfField noBinary parsed canonical shallow null
        simp [same, parsed, null]
  · obtain rfl := Payload.eq_of_transported_binary noBinary written read
    have same (ty : Ty) : decode (.ofBinary p.binary) ty = decode p ty :=
      (decode_binary (p := .ofBinary p.binary) noBinary ty).trans (decode_binary noBinary ty).symm
    simp [same, noBinary]

/-- A list with blanks in its text travels without them. -/
theorem decode_transported_iff_list :
    let p := Payload.ofText (utf8 "[ true ]")
    let q := Payload.ofText (utf8 "[true]")
    ∃ document, p.toJson = .ok document ∧ Payload.parse document.render = .ok q ∧
      ∀ ty value, decode q ty = .ok value ↔ decode p ty = .ok value := by
  intro p q
  let document := Json.object [("json", .array [.bool true])]
  have parsed : Json.parse p.text = .ok (.array [.bool true]) := by rfl
  have written : p.toJson = .ok document := by rfl
  have read : Payload.parse document.render = .ok q := by decide
  refine ⟨document, written, read, (decode_transported_iff written read).mpr ?_⟩
  simp [parsed]

/-- The payload of a bare null comes back empty, and decoding it fails. -/
theorem decode_transported_loses_null :
    ¬ ∀ (p q : Payload) (document : Json), p.toJson = .ok document →
      Payload.parse document.render = .ok q →
        ∀ ty value, decode q ty = .ok value ↔ decode p ty = .ok value := by
  intro claim
  let p := Payload.ofText (utf8 "null")
  have written : p.toJson = .ok (.object [("json", .null)]) := by rfl
  have read : Payload.parse (Json.object [("json", .null)]).render = .ok .empty := by
    decide
  have before : decode p .dynamic = .ok .null := by rfl
  have after := (claim p .empty _ written read .dynamic .null).mpr before
  rw [decode_empty rfl rfl] at after
  cases after

end Wire

end ScriptHost
