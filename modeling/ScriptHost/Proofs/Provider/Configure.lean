import ScriptHost.Host
import ScriptHost.Proofs.Provider.Runs
import ScriptHost.Proofs.Wire.Sound

set_option autoImplicit false

namespace ScriptHost

namespace Wire

/-- What is read from a payload has the type that it is read under, whichever form counts. -/
theorem exists_hasType {payload : Payload} {ty : Ty} {value : Value} (ordered : ty.Ordered)
    (read : decode payload ty = .ok value) : ∃ format, HasType format value ty := by
  rw [decode] at read
  split at read
  · obtain ⟨raw, -, found⟩ := Binary.exists_of_decode (mapError_eq_ok.mp read)
    exact ⟨.binary, (Binary.sound_read raw ty value ordered found).1⟩
  · split at read
    · exact ⟨.text, Text.hasType_decode ordered (mapError_eq_ok.mp read)⟩
    · cases read

end Wire

namespace Provider

/-- A payload is a map of texts, and among them is a source. -/
def HoldsSource (payload : Payload) (source : String) : Prop :=
  ∃ entries, Wire.decode payload (.map .string) = .ok (.map entries) ∧
    Dict.get? entries "lua" = some (.string source)

variable {payload : Payload} {source : String}

theorem ordered_mapOfTexts : (Ty.map .string).Ordered := by
  refine Ty.ordered_iff.mpr ⟨trivial, List.forall_mem_singleton.mpr ?_⟩
  exact Ty.ordered_iff.mpr ⟨trivial, List.forall_mem_nil _⟩

/-- Under the type of a configuration nothing is read as an object. -/
theorem sourceOf?_eq_some {value : Value} (read : Wire.decode payload (.map .string) = .ok value) :
    sourceOf? value = some source ↔
      ∃ entries, value = .map entries ∧ Dict.get? entries "lua" = some (.string source) := by
  obtain ⟨format, typed⟩ := Wire.exists_hasType ordered_mapOfTexts read
  cases typed with
  | null | unknown => simp [sourceOf?]
  | @map entries _ each =>
      have set : sourceOf? (.map entries) = some source ↔
          Dict.get? entries "lua" = some (.string source) := by
        rw [sourceOf?, Option.bind_eq_some_iff]
        constructor
        · rintro ⟨value, found, text⟩
          cases value <;> cases text
          exact found
        · exact fun found => ⟨_, found, rfl⟩
      rw [set]
      simp

theorem configure_of_holdsSource (p : Provider) (holds : HoldsSource payload source) :
    p.configure payload = p.configureSource source := by
  obtain ⟨entries, read, set⟩ := holds
  have taken : sourceOf? (.map entries) = some source :=
    (sourceOf?_eq_some read).mpr ⟨entries, rfl, set⟩
  rw [configure, read]
  simp only [taken]

theorem configure_of_not_holdsSource (p : Provider)
    (nothing : ∀ source, ¬ HoldsSource payload source) :
    ∃ d, d.isError = true ∧ p.configure payload = ([d], p) := by
  rw [configure]
  cases read : Wire.decode payload (.map .string) with
  | error e => exact ⟨_, rfl, rfl⟩
  | ok value =>
      cases found : sourceOf? value with
      | none =>
          simp only [found]
          exact ⟨_, rfl, rfl⟩
      | some source =>
          obtain ⟨entries, rfl, set⟩ := (sourceOf?_eq_some read).mp found
          exact absurd ⟨entries, read, set⟩ (nothing source)

/-- The document in which a source is handed over. -/
def sourceDocument (source : String) : MsgPack :=
  Wire.Binary.mapDocument [("lua", .ofText source)]

/-- A source is all that takes room in its document. -/
theorem sized_sourceDocument (short : (utf8 source).length < MsgPack.lengthLimit) :
    (sourceDocument source).Sized := by
  have text {text : String} (short : (utf8 text).length < MsgPack.lengthLimit) :
      (MsgPack.ofText text).Sized :=
    MsgPack.sized_iff.mpr ⟨short, List.forall_mem_nil _⟩
  refine MsgPack.sized_iff.mpr ⟨show 1 < MsgPack.lengthLimit by decide, fun child member => ?_⟩
  obtain ⟨entry, here, side⟩ := Wire.Binary.mem_children_mapDocument_iff.mp member
  obtain rfl := List.mem_singleton.mp here
  rcases side with rfl | rfl
  · exact text (show 3 < MsgPack.lengthLimit by decide)
  · exact text short

theorem exists_sourcePayload (short : (utf8 source).length < MsgPack.lengthLimit) :
    ∃ payload, Host.sourcePayload source = .ok payload ∧ HoldsSource payload source := by
  let value := Value.map [("lua", .string source)]
  have made : Wire.Binary.document value (.map .string) = .ok (sourceDocument source) := rfl
  have ordered : value.Ordered := by
    refine Value.ordered_iff.mpr ⟨by simp [value, Value.NamesAscend, Dict.Sorted], ?_⟩
    refine List.forall_mem_singleton.mpr ?_
    exact Value.ordered_iff.mpr ⟨trivial, List.forall_mem_nil _⟩
  have legible : (sourceDocument source).Legible := by
    refine Wire.Binary.legible_mapDocument (List.forall_mem_singleton.mpr ?_)
    exact MsgPack.legible_of_scalar rfl (by simp [MsgPack.ofText])
  have shallow : (sourceDocument source).nesting ≤ MsgPack.depthBudget := by
    show 5 ≤ MsgPack.depthBudget
    decide
  have read := Wire.Binary.decode_written ordered ordered_mapOfTexts made
    (sized_sourceDocument short) legible shallow
  have written : Wire.encode value (.map .string) = .ok (.ofBinary (sourceDocument source).write) :=
    Wire.encode_eq_ok.mpr ⟨sourceDocument source, made, rfl⟩
  refine ⟨_, written, [("lua", .string source)], ?_, ?_⟩
  · exact Wire.decode_ofBinary.mpr read
  · rw [Dict.get?_cons, if_pos rfl]

/-- A source as long as the limit has a payload, of which nothing is read. -/
theorem exists_sourcePayload_oversized (long : (utf8 source).length = MsgPack.lengthLimit) :
    ∃ payload, Host.sourcePayload source = .ok payload ∧
      ∀ ty value, Wire.decode payload ty ≠ .ok value := by
  let raw := MsgPack.map [(.ofText "lua", .string [])]
  have text : (MsgPack.ofText source).write = (MsgPack.string []).write ++ utf8 source :=
    MsgPack.write_string_of_length long
  have bytes : (sourceDocument source).write = raw.write ++ utf8 source := by
    simp [raw, sourceDocument, Wire.Binary.mapDocument, MsgPack.write, MsgPack.writePairs, text]
  have parts : raw.parts = [raw, .ofText "lua", .string []] := rfl
  have sized : raw.Sized := MsgPack.sized_of_length (by decide)
  have ranged : raw.Ranged := by
    intro part member
    rw [parts] at member
    fin_cases member <;> trivial
  refine ⟨.ofBinary (sourceDocument source).write, ?_, ?_⟩
  · exact Wire.encode_eq_ok.mpr ⟨sourceDocument source, rfl, rfl⟩
  · rw [bytes]
    exact Wire.decode_ofBinary_append sized ranged (by decide)
      (MsgPack.ne_nil_of_length_limit long)

theorem configured_eq (short : (utf8 source).length < MsgPack.lengthLimit) :
    Host.configured source = .ok (ofSource source) := by
  obtain ⟨payload, made, holds⟩ := exists_sourcePayload short
  have taken := configure_of_holdsSource empty holds
  have accepted : (review source).find? Diagnostic.isError = none := by
    rw [List.find?_eq_none]
    intro d member
    rw [isError_of_mem_review member]
    exact Bool.false_ne_true
  unfold Host.configured
  rw [made]
  dsimp only
  rw [taken]
  dsimp only [configureSource]
  rw [accepted]

/-- A host is ready when its settings name a source. -/
theorem loaded_eq {read : FileReader Id} {path : String} {settings : Settings}
    (set : Settings.load read path = Except.ok settings)
    (named : settings.source read = Except.ok source)
    (short : (utf8 source).length < MsgPack.lengthLimit) :
    Host.loaded read path = Except.ok (ofSource source) := by
  unfold Host.loaded
  simp only [bind, set, named]
  exact configured_eq short

/-- A payload that holds a source configures it as if it had been handed over itself, and without an
error; any other payload is refused with one error, and the provider is what it was before. The
payload in which a host hands over a source holds it, so that a host always comes to have the source
that its settings name. The length field of the format must hold the length of the source. -/
theorem configure_sourced (p : Provider) :
    (∀ payload source, HoldsSource payload source →
        p.configure payload = p.configureSource source ∧
          ∀ d ∈ (p.configure payload).1, d.isError = false) ∧
      (∀ payload, (∀ source, ¬ HoldsSource payload source) →
        ∃ d, d.isError = true ∧ p.configure payload = ([d], p)) ∧
      ∀ source, (utf8 source).length < MsgPack.lengthLimit →
        (∃ payload, Host.sourcePayload source = .ok payload ∧ HoldsSource payload source) ∧
          Host.configured source = .ok (p.configureSource source).2 ∧
            ∀ (read : FileReader Id) (path : String) (settings : Settings),
              Settings.load read path = Except.ok settings →
                settings.source read = Except.ok source →
                  Host.loaded read path = Except.ok (p.configureSource source).2 := by
  refine ⟨fun payload source holds => ?_, fun payload => configure_of_not_holdsSource p,
    fun source short => ⟨exists_sourcePayload short, configured_eq short, ?_⟩⟩
  · have same := configure_of_holdsSource p holds
    refine ⟨same, fun d member => ?_⟩
    rw [same] at member
    exact isError_of_mem_review member
  · intro read path settings set named
    exact loaded_eq set named short

/-- Not every source is held by its payload: of the payload of one as long as the limit nothing is
read, and the host has an error of configuration. -/
theorem not_configure_sourced_oversized :
    (¬ ∀ source, ∃ payload, Host.sourcePayload source = .ok payload ∧
        HoldsSource payload source) ∧
      ¬ ∀ source (summary detail : String),
        Host.configured source ≠ .error (.configure summary detail) := by
  obtain ⟨source, long⟩ := exists_text_of_length MsgPack.lengthLimit
  obtain ⟨payload, made, unread⟩ := exists_sourcePayload_oversized long
  have nothing (other : String) : ¬ HoldsSource payload other := by
    rintro ⟨entries, read, -⟩
    exact unread _ _ read
  constructor
  · intro all
    obtain ⟨other, same, holds⟩ := all source
    obtain rfl : other = payload := Except.ok.inj (same.symm.trans made)
    exact nothing source holds
  · intro all
    obtain ⟨d, isError, refused⟩ := configure_of_not_holdsSource empty nothing
    refine all source d.summary d.detail ?_
    unfold Host.configured
    rw [made]
    dsimp only
    rw [refused]
    simp [isError]

end Provider

end ScriptHost
