import ScriptHost.Host
import ScriptHost.Proofs.Wire.Plain

set_option autoImplicit false

namespace ScriptHost.Host

/-- A text is one document. -/
def IsDocument (text : String) : Prop := ∃ document, Json.parse (utf8 text) = .ok document

/-- A payload is read as the value of the document that a text is, if the document has at most 63
levels. The length fields of the payload must hold the lengths in it. -/
def Carries (text : String) (payload : Payload) : Prop :=
  ∃ document, Json.parse (utf8 text) = .ok document ∧
    (document.depth ≤ 63 →
      (∀ raw, Wire.Binary.document (.ofJson document) .dynamic = .ok raw → raw.Sized) →
        ∃ back, Wire.decode payload .dynamic = .ok back ∧
          (Value.ofJson document).equal back = true)

/-- A text is no document, and those before it are documents. -/
structure FirstBad (texts : List String) (position : Nat) (error : Json.ParseError) : Prop where
  bad : ∃ text, texts[position]? = some text ∧ Json.parse (utf8 text) = .error error
  before : ∀ earlier < position, ∀ text, texts[earlier]? = some text → IsDocument text

theorem exists_argument {text : String} {document : Json}
    (parsed : Json.parse (utf8 text) = .ok document) (position : Nat) :
    ∃ payload, argument position text = .ok payload ∧ Carries text payload := by
  obtain ⟨payload, written, read⟩ := Wire.exists_encode_ofJson (Json.canonical_of_parse parsed)
  refine ⟨payload, ?_, document, parsed, read⟩
  rw [argument, parsed]
  exact Wire.mapError_eq_ok.mpr written

theorem argument_of_error {text : String} {error : Json.ParseError}
    (failed : Json.parse (utf8 text) = .error error) (position : Nat) :
    argument position text = .error (.argument position error) := by
  rw [argument, failed]

/-- Texts that are documents have payloads in their order; of other texts the first is the failure,
at its position counted from the start. -/
theorem argumentsFrom_cases (start : Nat) (texts : List String) :
    (∃ payloads, argumentsFrom start texts = .ok payloads ∧ (∀ text ∈ texts, IsDocument text) ∧
      List.Forall₂ Carries texts payloads) ∨
    ∃ position error, argumentsFrom start texts = .error (.argument (start + position) error) ∧
      FirstBad texts position error := by
  induction texts generalizing start with
  | nil => exact .inl ⟨[], rfl, List.forall_mem_nil _, .nil⟩
  | cons text rest ih =>
      cases parsed : Json.parse (utf8 text) with
      | error error =>
          refine .inr ⟨0, error, ?_, ⟨text, rfl, parsed⟩, nofun⟩
          rw [argumentsFrom, argument_of_error parsed]
          rfl
      | ok document =>
          obtain ⟨payload, made, carries⟩ := exists_argument parsed start
          rcases ih (start + 1) with ⟨payloads, done, all, each⟩ | ⟨position, error, failed, first⟩
          · refine .inl ⟨payload :: payloads, ?_, ?_, .cons carries each⟩
            · rw [argumentsFrom, made, done]
              rfl
            · exact List.forall_mem_cons.mpr ⟨⟨document, parsed⟩, all⟩
          -- the first text that is none is one place further from where the count began
          · refine .inr ⟨position + 1, error, ?_, ?_, ?_⟩
            · rw [argumentsFrom, made, failed, Nat.add_assoc, Nat.add_comm 1]
              rfl
            · exact first.bad
            · intro earlier within other there
              cases earlier with
              | zero =>
                  cases there
                  exact ⟨document, parsed⟩
              | succ earlier =>
                  exact first.before earlier (Nat.lt_of_succ_lt_succ within) other there

theorem FirstBad.not_all {texts : List String} {position : Nat} {error : Json.ParseError}
    (first : FirstBad texts position error) : ¬ ∀ text ∈ texts, IsDocument text := by
  intro all
  obtain ⟨text, there, failed⟩ := first.bad
  obtain ⟨document, parsed⟩ := all text (List.mem_of_getElem? there)
  rw [parsed] at failed
  cases failed

/-- Arguments have payloads exactly if all of their texts are documents: one payload a text, which
is read back as the document's value. Otherwise they fail at the first text that is none. -/
theorem arguments_carried (texts : List String) :
    ((∃ payloads, arguments texts = .ok payloads) ↔ ∀ text ∈ texts, IsDocument text) ∧
      (∀ payloads, arguments texts = .ok payloads → List.Forall₂ Carries texts payloads) ∧
      ∀ e, arguments texts = .error e →
        ∃ position error, e = .argument position error ∧ FirstBad texts position error := by
  rcases argumentsFrom_cases 0 texts with ⟨made, done, all, each⟩ | ⟨position, error, failed, first⟩
  · rw [arguments, done]
    refine ⟨⟨fun _ => all, fun _ => ⟨made, rfl⟩⟩, fun payloads same => ?_, nofun⟩
    cases same
    exact each
  · rw [arguments, failed]
    refine ⟨⟨nofun, fun all => absurd all first.not_all⟩, nofun, fun e same => ?_⟩
    cases same
    exact ⟨position, error, by rw [Nat.zero_add], first⟩

/-- A list arrives as a tuple; a bracket alone is the failure, at its position. -/
theorem arguments_carried_second :
    (∃ first second back, arguments ["1", "[true]"] = .ok [first, second] ∧
      Wire.decode second .dynamic = .ok back ∧
        (Value.tuple [.bool true]).equal back = true) ∧
      ∃ error, arguments ["null", "["] = .error (.argument 1 error) ∧
        FirstBad ["null", "["] 1 error := by
  constructor
  · have number : Json.parse (utf8 "1") = .ok (.integer 1) := by rfl
    have array : Json.parse (utf8 "[true]") = .ok (.array [.bool true]) := by rfl
    have documents : ∀ text ∈ ["1", "[true]"], IsDocument text := by
      rw [List.forall_mem_cons, List.forall_mem_singleton]
      exact ⟨⟨_, number⟩, ⟨_, array⟩⟩
    obtain ⟨payloads, done⟩ := (arguments_carried _).1.mpr documents
    obtain ⟨first, _, -, more, rfl⟩ :=
      List.forall₂_cons_left_iff.mp ((arguments_carried _).2.1 payloads done)
    obtain ⟨second, _, ⟨document, parsed, read⟩, none, rfl⟩ := List.forall₂_cons_left_iff.mp more
    cases none
    rw [array] at parsed
    cases parsed
    have sized : ∀ raw, Wire.Binary.document (.ofJson (.array [.bool true])) .dynamic = .ok raw →
        raw.Sized := by
      intro raw made
      cases made
      exact MsgPack.sized_of_length (by decide)
    obtain ⟨back, decoded, same⟩ := read (by decide) sized
    exact ⟨first, second, back, done, decoded, same⟩
  · have failed : ∃ error, arguments ["null", "["] = .error (.argument 1 error) := ⟨_, by rfl⟩
    obtain ⟨error, failed⟩ := failed
    obtain ⟨position, _, same, first⟩ := (arguments_carried _).2.2 _ failed
    cases same
    exact ⟨error, failed, first⟩

/-- Letters between quotes are a document, which is written like this. -/
theorem parse_quoted_letters (count : Nat) :
    Json.parse (utf8 (String.ofList ('"' :: List.replicate count 'a' ++ ['"']))) =
      .ok (.string (letters count)) := by
  have bytes : utf8 (String.ofList ('"' :: List.replicate count 'a' ++ ['"'])) =
      (Json.string (letters count)).render := by
    have inside : (List.replicate count 'a').flatMap String.utf8EncodeChar =
        utf8 (letters count) := by rw [letters, utf8_ofList]
    have plain : (List.replicate count (0x61 : UInt8)).flatMap Json.escape =
        List.replicate count 0x61 := by
      rw [List.flatMap_replicate]
      exact List.flatten_replicate_singleton
    have rendered : (Json.string (letters count)).render = Json.quoted (letters count) := by
      rw [Json.render, Json.scalarText]
      all_goals simp
    rw [rendered, Json.quoted, utf8_ofList, List.flatMap_append, List.flatMap_cons, inside,
      utf8_letters, plain]
    rfl
  rw [bytes]
  exact (Json.parse_render (Json.reads_string _)).1 (Nat.zero_le _)

/-- Not every document is read back: of the payload of a text as long as the limit nothing is
read. -/
theorem not_arguments_carried_oversized :
    ¬ ∀ (texts : List String) (payloads : List Payload), arguments texts = .ok payloads →
      List.Forall₂ (fun text payload => ∃ document, Json.parse (utf8 text) = .ok document ∧
        (document.depth ≤ 63 → ∃ back, Wire.decode payload .dynamic = .ok back ∧
          (Value.ofJson document).equal back = true)) texts payloads := by
  intro all
  obtain ⟨count, limit⟩ : ∃ count, count = MsgPack.lengthLimit := ⟨_, rfl⟩
  have long : (utf8 (letters count)).length = MsgPack.lengthLimit := by
    rw [length_utf8_letters, limit]
  let text := String.ofList ('"' :: List.replicate count 'a' ++ ['"'])
  have parsed : Json.parse (utf8 text) = .ok (.string (letters count)) :=
    parse_quoted_letters count
  obtain ⟨payload, written, unread⟩ := Wire.exists_encode_oversized long
  have made : argument 0 text = .ok payload := by
    rw [argument, parsed]
    exact Wire.mapError_eq_ok.mpr written
  have done : arguments [text] = .ok [payload] := by
    rw [arguments, argumentsFrom, made]
    rfl
  obtain ⟨document, same, read⟩ := (List.forall₂_cons.mp (all [text] [payload] done)).1
  cases parsed.symm.trans same
  obtain ⟨back, found, -⟩ := read (Nat.zero_le _)
  exact unread _ _ found

end ScriptHost.Host
