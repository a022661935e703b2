import ScriptHost.Proofs.Wire.Path
import ScriptHost.Wire

set_option autoImplicit false

namespace ScriptHost

namespace MsgPack

variable {α : Type}

/-- A steady reader takes the same bytes, and makes the same of them, whatever follows the input. -/
def Steady (reader : List UInt8 → Read α) : Prop :=
  ∀ s result rest, reader s = .ok (result, rest) →
    ∀ more, reader (s ++ more) = .ok (result, rest ++ more)

theorem steady_ok (result : α) : Steady fun s => .ok (result, s) := by
  intro s result' rest done more
  cases done
  rfl

theorem steady_error (fault : Fault) : Steady fun _ => (.error fault : Read α) := by
  intro s result rest done more
  cases done

/-- What decides between two readers is known before any byte is read. -/
theorem Steady.ite {first second : List UInt8 → Read α} (p : Prop) [Decidable p]
    (steadyFirst : Steady first) (steadySecond : Steady second) :
    Steady fun s => if p then first s else second s := by
  by_cases holds : p
  · simpa only [if_pos holds] using steadyFirst
  · simpa only [if_neg holds] using steadySecond

theorem steady_unsigned {width : Nat} {next : Nat → List UInt8 → Read α}
    (behind : ∀ n, Steady (next n)) : Steady fun s => unsigned width s next := by
  intro s result rest done more
  simp only [unsigned] at done ⊢
  split at done
  · cases done
  · rename_i enough
    have long : width ≤ s.length := by
      rw [List.length_take] at enough
      omega
    rw [List.take_append_of_le_length long, List.drop_append_of_le_length long, if_neg enough]
    exact behind _ _ _ _ done more

theorem steady_body (length : Nat) (make : List UInt8 → α) :
    Steady fun s => body length s make := by
  intro s result rest done more
  simp only [body] at done ⊢
  split at done
  · cases done
  · rename_i enough
    have long : length ≤ s.length := by
      rw [List.length_take] at enough
      omega
    rw [List.take_append_of_le_length long, List.drop_append_of_le_length long, if_neg enough]
    cases done
    rfl

theorem steady_many {item : List UInt8 → Read α} (steady : Steady item) (count : Nat)
    (before : List α) : Steady (many item count before) := by
  intro s result rest done more
  induction count generalizing before s with
  | zero =>
      cases done
      rfl
  | succ count ih =>
      rw [many] at done ⊢
      cases first : item s with
      | error fault => simp [first] at done
      | ok both =>
          obtain ⟨value, behind⟩ := both
          rw [steady _ _ _ first more]
          simp only [first] at done
          exact ih (value :: before) behind done

theorem steady_pair {item : List UInt8 → Read MsgPack} (steady : Steady item) :
    Steady (pair item) := by
  intro s result rest done more
  rw [pair] at done ⊢
  cases first : item s with
  | error fault => simp [first] at done
  | ok key =>
      cases second : item key.2 with
      | error fault => simp [first, second] at done
      | ok value =>
          rw [steady _ _ _ first more]
          simp only [first, second] at done
          cases done
          simp only [steady _ _ _ second more]

namespace Level

variable {level : Level}

theorem steady_stringBody (length : Nat) : Steady (level.stringBody length) :=
  (steady_error .depth).ite _ (steady_body length MsgPack.string)

theorem steady_binaryBody (length : Nat) : Steady (level.binaryBody length) :=
  (steady_error .depth).ite _ (steady_body length MsgPack.binary)

theorem steady_extensionBody (length : Nat) : Steady (level.extensionBody length) :=
  (steady_error .depth).ite _ <| steady_unsigned fun type =>
    (steady_error .depth).ite _ (steady_body length (MsgPack.extension (toSigned 1 type)))

/-- An array or a map is read steadily if what it holds is. -/
theorem steady_arrayBody (nested : ∀ item ∈ level.nested, Steady item) (length : Nat) :
    Steady (level.arrayBody length) := by
  intro s result rest done more
  rw [arrayBody] at done ⊢
  split at done
  · cases done
  · rename_i item here
    cases inside : many item length [] s with
    | error fault => simp [inside] at done
    | ok both =>
        have all := steady_many (nested item here) length [] s both.1 both.2 inside more
        simp only [inside] at done
        cases done
        simp only [all]

theorem steady_mapBody (nested : ∀ item ∈ level.nested, Steady item) (length : Nat) :
    Steady (level.mapBody length) := by
  intro s result rest done more
  rw [mapBody] at done ⊢
  split at done
  · cases done
  · rename_i item here
    cases inside : many (pair item) length [] s with
    | error fault => simp [inside] at done
    | ok both =>
        have steady := steady_pair (nested item here)
        have all := steady_many steady length [] s both.1 both.2 inside more
        simp only [inside] at done
        cases done
        simp only [all]

/-- A marker says once and for all how the bytes behind it are read. -/
theorem steady_afterMarker (nested : ∀ item ∈ level.nested, Steady item) (marker : Nat) :
    Steady (level.afterMarker marker) := by
  have array := steady_arrayBody nested
  have map := steady_mapBody nested
  unfold afterMarker
  refine (steady_ok _).ite _ ((map _).ite _ ((array _).ite _ ((steady_stringBody _).ite _
    ((steady_ok _).ite _ ?_))))
  -- one marker for each width of a field
  split
  all_goals first
    | exact steady_unsigned steady_binaryBody
    | exact steady_unsigned steady_extensionBody
    | exact steady_unsigned steady_stringBody
    | exact steady_unsigned array
    | exact steady_unsigned map
    | exact steady_unsigned fun n => steady_ok _
    | exact steady_extensionBody _
    | exact steady_ok _

end Level

theorem steady_level (level : Level) (nested : ∀ item ∈ level.nested, Steady item) :
    Steady level.read := by
  intro s result rest done more
  cases s with
  | nil => cases done
  | cons marker s => exact Level.steady_afterMarker nested marker.toNat s result rest done more

/-- The reader of documents takes the bytes of one document, whatever follows them. -/
theorem steady_read : (budget : Nat) → Steady (read budget)
  | 0 => steady_error .depth
  | 1 => steady_level ⟨0, none⟩ nofun
  | budget + 2 => by
      refine steady_level ⟨budget + 1, some (read budget)⟩ ?_
      rintro item ⟨⟩
      exact steady_read budget

end MsgPack

namespace Wire

variable {bytes more : List UInt8} {ty : Ty} {value : Value}

/-- What is read as a value holds one document and nothing else. -/
theorem exists_document_of_decode (done : decodeBinary bytes ty = .ok value) :
    ∃ document, MsgPack.read MsgPack.depthBudget bytes = .ok (document, []) := by
  have read := mapError_eq_ok.mp done
  rw [Binary.decode] at read
  split at read
  · cases read
  · rename_i document whole
    exact ⟨document, whole⟩
  · cases read

/-- Bytes behind a document are counted before the type is looked at. -/
theorem decodeBinary_trailing {document : MsgPack}
    (whole : MsgPack.read MsgPack.depthBudget bytes = .ok (document, [])) (behind : more ≠ [])
    (ty : Ty) : decodeBinary (bytes ++ more) ty =
      .error (.decode .binary "" (toString more.length ++ " trailing bytes after value")) := by
  obtain ⟨byte, rest, rfl⟩ := List.exists_cons_of_ne_nil behind
  have read := MsgPack.steady_read _ _ _ _ whole (byte :: rest)
  rw [decodeBinary, Binary.decode, read]
  rfl

/-- A payload with bytes behind it is refused for their number, and what a payload begins with is no
payload of any type, short of the whole. -/
theorem decodeBinary_append (done : decodeBinary bytes ty = .ok value) :
    (∀ more ≠ [], ∀ other, decodeBinary (bytes ++ more) other =
        .error (.decode .binary "" (toString more.length ++ " trailing bytes after value"))) ∧
      ∀ front, front <+: bytes → front ≠ bytes →
        ∀ other back, decodeBinary front other ≠ .ok back := by
  obtain ⟨document, whole⟩ := exists_document_of_decode done
  refine ⟨fun more behind other => decodeBinary_trailing whole behind other, ?_⟩
  rintro front ⟨more, rfl⟩ shorter other back found
  obtain ⟨inner, wholeFront⟩ := exists_document_of_decode found
  have behind : more ≠ [] := by
    rintro rfl
    exact shorter (List.append_nil front).symm
  -- the whole would be the shorter payload with bytes behind it
  rw [decodeBinary_trailing wholeFront behind ty] at done
  cases done

/-- A map with a list inside, of which the last item is missing or followed by two bytes. -/
theorem decodeBinary_append_map :
    let bytes := [0x81, 0xa1, 0x61, 0x92, 0xc3, 0xc0]
    decodeBinary bytes (.map (.list .bool)) = .ok (.map [("a", .list [.bool true, .null])]) ∧
      decodeBinary (bytes ++ [0xc0, 0x01]) .dynamic =
          .error (.decode .binary "" "2 trailing bytes after value") ∧
        ∀ other back, decodeBinary [0x81, 0xa1, 0x61, 0x92, 0xc3] other ≠ .ok back := by
  intro bytes
  have done : decodeBinary bytes (.map (.list .bool)) =
      .ok (.map [("a", .list [.bool true, .null])]) := by rfl
  obtain ⟨trailing, fronts⟩ := decodeBinary_append done
  exact ⟨done, trailing [0xc0, 0x01] (by simp) .dynamic, fronts _ ⟨[0xc0], rfl⟩ (by decide)⟩

end Wire

end ScriptHost
