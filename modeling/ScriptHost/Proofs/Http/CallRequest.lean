import ScriptHost.Http.CallRequest
import ScriptHost.Proofs.Json.Canonical

set_option autoImplicit false

namespace ScriptHost.CallRequest

/-- A document stands for a payload where a request may hold it. -/
structure Bears (document : Json) (p : Payload) : Prop where
  canonical : document.Canonical
  shallow : document.depth ≤ payloadDepth
  made : Payload.ofJson document = .ok p

section Items

variable {document : Json} {p : Payload} {s t : List UInt8} {fuel : Nat}

theorem payload_render (bears : Bears document p) {rest : List UInt8} (ends : Json.Ends rest) :
    payload (document.render ++ rest) = .ok (p, rest) := by
  have read := (bears.canonical.reads payloadDepth rest ends).1 bears.shallow
  simp only [payload, read, bears.made]

theorem payloadItems_skipBlanks (fuel : Nat) (before : List Payload) (s : List UInt8) :
    payloadItems (fuel + 1) before (Json.skipBlanks s) = payloadItems (fuel + 1) before s := by
  rw [payloadItems, payloadItems, payload, payload, Json.value_skipBlanks]

theorem payloadItems_bracket (before : List Payload) (read : payload s = .ok (p, 93 :: t)) :
    payloadItems (fuel + 1) before s = .ok (before.reverse ++ [p], t) := by
  have bracket : Json.skipBlanks (93 :: t) = 93 :: t := Json.skipBlanks_cons t rfl
  rw [payloadItems, read]
  simp only [under, bracket, if_true, List.reverse_cons]

/-- Behind a payload and a comma the next one is read. -/
theorem payloadItems_comma (before : List Payload) (read : payload s = .ok (p, 44 :: t))
    {byte : UInt8} {tail : List UInt8} (begins : Json.skipBlanks t = byte :: tail)
    (notClosing : byte ≠ 93) :
    payloadItems (fuel + 2) before s = payloadItems (fuel + 1) (p :: before) t := by
  have blanks := payloadItems_skipBlanks fuel (p :: before) t
  have comma : Json.skipBlanks (44 :: t) = 44 :: t := Json.skipBlanks_cons t rfl
  rw [begins] at blanks
  rw [payloadItems, read]
  simp only [under, comma, begins, if_neg notClosing, blanks]
  rfl

/-- The text of a document begins with a byte that does not close an array. -/
theorem begins_render (bears : Bears document p) {rest : List UInt8} (ends : Json.Ends rest) :
    ∃ byte tail, Json.skipBlanks (document.render ++ rest) = byte :: tail ∧ byte ≠ 93 :=
  Json.begins_of_value ((bears.canonical.reads payloadDepth rest ends).1 bears.shallow)

/-- Payloads are read one after the other up to the closing bracket. -/
theorem payloadItems_renderItems {first : Json} {more : List Json} {p : Payload}
    {others : List Payload} (before : List Payload) (rest : List UInt8) (bears : Bears first p)
    (bearMore : List.Forall₂ Bears more others) (enough : more.length < fuel) :
    payloadItems fuel before (first.render ++ (Json.renderItems more ++ rest)) =
      .ok (before.reverse ++ p :: others, rest) := by
  have read := payload_render bears (Json.ends_renderItems more rest)
  induction bearMore generalizing first p fuel before with
  | nil =>
      obtain ⟨fuel, rfl⟩ : ∃ n, fuel = n + 1 := ⟨fuel - 1, by omega⟩
      exact payloadItems_bracket before read
  | @cons second q more others bearsSecond _ ih =>
      rw [List.length_cons] at enough
      obtain ⟨fuel, rfl⟩ : ∃ n, fuel = n + 2 := ⟨fuel - 2, by omega⟩
      have ends := Json.ends_renderItems more rest
      have behind := ih (p :: before) bearsSecond (show more.length < fuel + 1 by omega)
        (payload_render bearsSecond ends)
      rw [List.reverse_cons, List.append_assoc, List.singleton_append] at behind
      obtain ⟨byte, tail, begins, notClosing⟩ := begins_render bearsSecond ends
      have text : Json.renderItems (second :: more) ++ rest =
          44 :: (second.render ++ (Json.renderItems more ++ rest)) := by
        simp [Json.renderItems]
      rw [text] at read ⊢
      rw [payloadItems_comma before read begins notClosing, behind]

end Items

section Request

variable {documents : List Json} {found : List Payload}

theorem payloads_bracket (s : List UInt8) : payloads (91 :: s) = payloadsTail s := by
  have bracket : Json.skipBlanks (91 :: s) = 91 :: s := Json.skipBlanks_cons s rfl
  rw [payloads, bracket]
  rfl

theorem payloads_render (bear : List.Forall₂ Bears documents found) (rest : List UInt8) :
    payloads ((Json.array documents).render ++ rest) = .ok (found, rest) := by
  cases bear with
  | nil =>
      have text : (Json.array []).render ++ rest = 91 :: 93 :: rest := rfl
      have bracket : Json.skipBlanks (93 :: rest) = 93 :: rest := Json.skipBlanks_cons rest rfl
      rw [text, payloads_bracket, payloadsTail, bracket]
      rfl
  | @cons first p more others bears bearMore =>
      have text : (Json.array (first :: more)).render ++ rest =
          91 :: (first.render ++ (Json.renderItems more ++ rest)) := by
        simp [Json.render]
      obtain ⟨byte, tail, begins, notClosing⟩ :=
        begins_render bears (Json.ends_renderItems more rest)
      have enough : more.length < tail.length + 1 := by
        obtain ⟨solid, behind, same, notBlank, longer⟩ := Json.renderItems_eq_cons more rest
        have kept := Json.length_skipBlanks_append first.render behind notBlank
        rw [← same, begins, same, List.length_cons, List.length_cons] at kept
        omega
      have inside := payloadItems_renderItems [] rest bears bearMore enough
      rw [← payloadItems_skipBlanks, begins] at inside
      rw [text, payloads_bracket, payloadsTail, begins]
      simp only [if_neg notClosing]
      exact inside

/-- The field of a request is read behind its name. -/
theorem fieldValue_render (bear : List.Forall₂ Bears documents found) (rest : List UInt8) :
    fieldValue fieldName none (58 :: ((Json.array documents).render ++ rest)) =
      .ok (some found, rest) := by
  have blanks : Json.skipBlanks (58 :: ((Json.array documents).render ++ rest)) =
      58 :: ((Json.array documents).render ++ rest) := Json.skipBlanks_cons _ rfl
  have behind : Json.colon (58 :: ((Json.array documents).render ++ rest)) =
      .ok ((Json.array documents).render ++ rest) := by
    rw [Json.colon, blanks]
    rfl
  rw [fieldValue, if_pos rfl]
  simp only [behind, payloads_render bear rest, under]

theorem fields_render (bear : List.Forall₂ Bears documents found) (fuel : Nat) :
    fields (fuel + 1) none (Json.fieldText fieldName ((Json.array documents).render ++ [125])) =
      .ok (some found, []) := by
  have brace : Json.skipBlanks [125] = [125] := rfl
  rw [fields, Json.stringBody_fieldText]
  simp only [fieldValue_render bear, brace, if_true]

/-- The document of a request. -/
def document (documents : List Json) : Json := .object [(fieldName, .array documents)]

/-- A request is read back from its written form. -/
theorem parse_render (bear : List.Forall₂ Bears documents found) :
    parse (document documents).render = .ok ⟨found⟩ := by
  have text : (document documents).render =
      123 :: 34 :: Json.fieldText fieldName ((Json.array documents).render ++ [125]) := by
    simp [document, Json.render, Json.renderFields, Json.quoted, Json.fieldText]
  have brace (s : List UInt8) : Json.skipBlanks (123 :: s) = 123 :: s := Json.skipBlanks_cons s rfl
  have quote (s : List UInt8) : Json.skipBlanks (34 :: s) = 34 :: s := Json.skipBlanks_cons s rfl
  have inside : objectTail
      (34 :: Json.fieldText fieldName ((Json.array documents).render ++ [125])) =
        .ok (some found, []) := by
    rw [objectTail, quote]
    exact fields_render bear _
  have whole : body (document documents).render = .ok (some found, []) := by
    rw [text, body, brace]
    exact inside
  rw [parse, whole]
  rfl

end Request

end ScriptHost.CallRequest
