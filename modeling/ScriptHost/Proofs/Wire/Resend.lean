import ScriptHost.Proofs.Wire.Transport

set_option autoImplicit false

namespace ScriptHost.Payload

/-- Whatever is read as a payload is an object. -/
theorem exists_fields_of_parse {input : List UInt8} {q : Payload} (received : parse input = .ok q) :
    ∃ fields, Json.parse input = .ok (.object fields) ∧ ofJson (.object fields) = .ok q := by
  rw [parse] at received
  split at received
  · cases received
  rename_i document rest read
  split at received
  · cases received
  rename_i payload made
  rw [Json.finish] at received
  split at received
  · rename_i ended
    cases received
    cases document with
    | object fields =>
        refine ⟨fields, ?_, made⟩
        rw [Json.parse, read, Json.finish, ended]
        rfl
    | _ => cases made
  · cases received

theorem ofJson_object {fields : List (String × Json)} {q : Payload}
    (made : ofJson (.object fields) = .ok q) :
    binaryOfField (Dict.get? fields "msgpack") = .ok q.binary ∧
      q.text = textOfField (Dict.get? fields "json") := by
  rw [ofJson] at made
  split at made
  · cases made
  · rename_i binary found
    cases made
    exact ⟨found, rfl⟩

/-- The symbols of a binary form are those in which it is written. -/
theorem utf8_of_binaryOfField {symbols : String} {bytes : List UInt8}
    (read : binaryOfField (some (.string symbols)) = .ok bytes) :
    utf8 symbols = Base64.encode bytes := by
  rw [binaryOfField] at read
  split at read
  · rename_i decoded
    cases read
    exact (Base64.encode_of_decode decoded).symm
  · cases read

/-- A text form that is there is the compact form of a document other than null. -/
theorem exists_inner_of_textOfField {fields : List (String × Json)}
    (there : textOfField (Dict.get? fields "json") ≠ []) :
    ∃ inner, ("json", inner) ∈ fields ∧ inner ≠ .null ∧
      textOfField (Dict.get? fields "json") = inner.render := by
  cases found : Dict.get? fields "json" with
  | none => simp [found, textOfField] at there
  | some inner =>
      have known : inner ≠ .null := by
        rintro rfl
        simp [found, textOfField] at there
      exact ⟨inner, Dict.mem_of_get? found, known, textOfField_of_ne_null known⟩

/-- The symbols of a binary form that is there are written as they were received. -/
theorem toJson_of_symbols {q : Payload} {symbols : String}
    (text : utf8 symbols = Base64.encode q.binary) (some : symbols ≠ "") :
    q.toJson = .ok (.object [("msgpack", .string symbols)]) := by
  have there : q.binary ≠ [] := by
    intro absent
    rw [absent] at text
    have same : utf8 symbols = utf8 "" := text
    exact some (utf8_injective same)
  obtain ⟨others, alsoText, written⟩ := toJson_binary there
  rw [written, utf8_injective (alsoText.trans text.symm)]

/-- The binary form comes back, and the text form beside it is lost. -/
theorem resent_binary {q : Payload} (there : q.binary ≠ []) :
    ∃ document, q.toJson = .ok document ∧ parse document.render = .ok (.ofBinary q.binary) := by
  obtain ⟨symbols, text, written⟩ := toJson_binary there
  refine ⟨_, written, parse_of_ofJson (canonical_field (.string symbols)) ?_ (ofJson_binary text)⟩
  have flat : (Json.string symbols).depth = 0 := by simp [Json.depth]
  rw [depth_field, flat]
  decide

theorem resent_text {inner : Json} (there : inner.render ≠ []) (known : inner ≠ .null)
    (canonical : inner.Canonical) (shallow : inner.depth < Json.depthLimit) :
    ∃ document, (ofText inner.render).toJson = .ok document ∧
      parse document.render = .ok (.ofText inner.render) := by
  have parsed : Json.parse (ofText inner.render).text = .ok inner :=
    (Json.parse_render canonical.reads).1 (Nat.le_of_lt shallow)
  refine ⟨.object [("json", inner)], ?_, ?_⟩
  · rw [toJson, if_neg (by simp [ofText]), if_pos (by simpa [ofText] using there), parsed]
    rfl
  · apply parse_of_ofJson (canonical_field canonical)
    · rw [depth_field]
      omega
    · rw [ofJson_text, textOfField_of_ne_null known]

theorem resent_empty :
    ∃ document, empty.toJson = .ok document ∧ parse document.render = .ok empty :=
  ⟨.object [], rfl, parse_of_ofJson (.object Dict.sorted_nil (by simp)) (by decide) rfl⟩

/-- A received payload without a binary form comes back as it was. -/
theorem resent_of_absent {input : List UInt8} {q : Payload} (received : parse input = .ok q)
    (absent : q.binary = []) :
    ∃ document, q.toJson = .ok document ∧ parse document.render = .ok q := by
  by_cases noText : q.text = []
  · obtain rfl : q = empty := congr (congrArg Payload.mk absent) noText
    exact resent_empty
  · obtain ⟨fields, parsed, made⟩ := exists_fields_of_parse received
    obtain ⟨-, text⟩ := ofJson_object made
    obtain ⟨inner, member, known, same⟩ := exists_inner_of_textOfField (text ▸ noText)
    have shallow := Json.depth_le_of_parse parsed
    have inside : inner.depth < (Json.object fields).depth := Json.depth_field_lt member
    cases Json.canonical_of_parse parsed with
    | object _ each =>
        obtain rfl : q = ofText inner.render :=
          congr (congrArg Payload.mk absent) (text.trans same)
        exact resent_text noText known (each _ member) (by omega)

/-- A received payload can be written again, and comes back as it was exactly if it does not hold
both forms. A binary form is written in the symbols in which it was received. -/
theorem resent_iff {input : List UInt8} {q : Payload} (received : parse input = .ok q) :
    ∃ fields document, Json.parse input = .ok (.object fields) ∧ q.toJson = .ok document ∧
      (parse document.render = .ok q ↔ q.binary = [] ∨ q.text = []) ∧
      ∀ symbols, Dict.get? fields "msgpack" = some (.string symbols) →
        utf8 symbols = Base64.encode q.binary ∧
          (symbols ≠ "" → document = .object [("msgpack", .string symbols)]) := by
  obtain ⟨fields, parsed, made⟩ := exists_fields_of_parse received
  obtain ⟨binary, -⟩ := ofJson_object made
  obtain ⟨document, written, back⟩ : ∃ document, q.toJson = .ok document ∧
      (parse document.render = .ok q ↔ q.binary = [] ∨ q.text = []) := by
    by_cases absent : q.binary = []
    · obtain ⟨document, written, back⟩ := resent_of_absent received absent
      exact ⟨document, written, by simp [back, absent]⟩
    · obtain ⟨document, written, back⟩ := resent_binary absent
      have only : Payload.ofBinary q.binary = q ↔ q.text = [] := by
        cases q
        simp [ofBinary, eq_comm]
      exact ⟨document, written, by simp [back, absent, only]⟩
  refine ⟨fields, document, parsed, written, back, fun symbols found => ?_⟩
  rw [found] at binary
  have text := utf8_of_binaryOfField binary
  exact ⟨text, fun some => Except.ok.inj (written.symm.trans (toJson_of_symbols text some))⟩

/-- Blanks and a null beside the binary form are lost, and its symbols are kept. -/
theorem resent_iff_symbols :
    let q := Payload.ofBinary [0x92, 0xc4, 0x01]
    let document := Json.object [("msgpack", .string "ksQB")]
    parse (utf8 "\x7b \"msgpack\": \"ksQB\", \"json\": null \x7d") = .ok q ∧
      q.toJson = .ok document ∧ parse document.render = .ok q := by
  intro q document
  have received : parse (utf8 "\x7b \"msgpack\": \"ksQB\", \"json\": null \x7d") = .ok q := by
    decide
  have fieldsRead : Json.parse (utf8 "\x7b \"msgpack\": \"ksQB\", \"json\": null \x7d") =
      .ok (.object [("json", .null), ("msgpack", .string "ksQB")]) := by rfl
  obtain ⟨fields, other, parsed, written, back, kept⟩ := resent_iff received
  cases fieldsRead.symm.trans parsed
  obtain rfl : other = document := (kept "ksQB" rfl).2 (by decide)
  exact ⟨received, written, back.mpr (.inr rfl)⟩

end ScriptHost.Payload
