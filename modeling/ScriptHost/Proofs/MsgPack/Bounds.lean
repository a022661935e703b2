import ScriptHost.Proofs.MsgPack.Extent

set_option autoImplicit false

namespace ScriptHost.MsgPack

theorem foldl_bytes_lt (bytes : List UInt8) (above : Nat) :
    bytes.foldl (fun n byte => 256 * n + byte.toNat) above < (above + 1) * 256 ^ bytes.length := by
  induction bytes generalizing above with
  | nil => simp
  | cons byte rest ih =>
      have first : 256 * above + byte.toNat + 1 ≤ (above + 1) * 256 := by
        have := byte.toNat_lt
        omega
      calc rest.foldl (fun n byte => 256 * n + byte.toNat) (256 * above + byte.toNat)
          < (256 * above + byte.toNat + 1) * 256 ^ rest.length := ih _
        _ ≤ (above + 1) * 256 * 256 ^ rest.length := Nat.mul_le_mul_right _ first
        _ = (above + 1) * 256 ^ (byte :: rest).length := by
            rw [List.length_cons, Nat.pow_succ', Nat.mul_assoc]

theorem ofBigEndian_lt (bytes : List UInt8) : ofBigEndian bytes < 256 ^ bytes.length := by
  have bound := foldl_bytes_lt bytes 0
  rwa [Nat.zero_add, Nat.one_mul] at bound

/-- A number of some bytes is within the range of so many. -/
theorem exists_of_unsigned {α : Type} {width : Nat} {s : List UInt8}
    {next : Nat → List UInt8 → Read α} {result : α × List UInt8}
    (done : unsigned width s next = .ok result) :
    ∃ n < 256 ^ width, ∃ behind, next n behind = .ok result := by
  rw [unsigned] at done
  split at done
  · cases done
  · have bound := ofBigEndian_lt (s.take width)
    have most : (s.take width).length ≤ width := List.length_take_le width s
    refine ⟨_, ?_, _, done⟩
    exact Nat.lt_of_lt_of_le bound (Nat.pow_le_pow_right (by decide) most)

theorem exists_of_body {α : Type} {length : Nat} {s rest : List UInt8} {make : List UInt8 → α}
    {result : α} (done : body length s make = .ok (result, rest)) :
    ∃ bytes : List UInt8, bytes.length = length ∧ make bytes = result := by
  rw [body] at done
  split at done
  · cases done
  · have most : (s.take length).length ≤ length := List.length_take_le length s
    cases done
    exact ⟨_, by omega, rfl⟩

section Many

variable {α : Type} {P : α → Prop}

/-- What holds of everything that is read holds of all items, of which there are as many as were to
be read. -/
theorem forall_of_many {item : List UInt8 → Read α}
    (each : ∀ s result rest, item s = .ok (result, rest) → P result) {count : Nat}
    {before results : List α} {s rest : List UInt8} (inBefore : ∀ x ∈ before, P x)
    (done : many item count before s = .ok (results, rest)) :
    results.length = before.length + count ∧ ∀ x ∈ results, P x := by
  induction count generalizing before s with
  | zero =>
      cases done
      simpa using inBefore
  | succ count ih =>
      rw [many] at done
      cases first : item s with
      | error fault => simp [first] at done
      | ok both =>
          obtain ⟨value, behind⟩ := both
          have all : ∀ x ∈ value :: before, P x :=
            List.forall_mem_cons.mpr ⟨each _ _ _ first, inBefore⟩
          simp only [first] at done
          obtain ⟨length, inside⟩ := ih all done
          rw [List.length_cons] at length
          exact ⟨by omega, inside⟩

theorem both_of_pair {P : MsgPack → Prop} {item : List UInt8 → Read MsgPack}
    (each : ∀ s result rest, item s = .ok (result, rest) → P result) {s rest : List UInt8}
    {result : MsgPack × MsgPack} (done : pair item s = .ok (result, rest)) :
    P result.1 ∧ P result.2 := by
  rw [pair] at done
  cases first : item s with
  | error fault => simp [first] at done
  | ok key =>
      cases second : item key.2 with
      | error fault => simp [first, second] at done
      | ok value =>
          simp only [first, second] at done
          cases done
          exact ⟨each _ _ _ first, each _ _ _ second⟩

end Many

/-- A document is within a budget, and its lengths are within the length fields of the format. -/
structure Within (budget : Nat) (raw : MsgPack) : Prop where
  nesting : raw.nesting ≤ budget
  sized : raw.Sized

theorem within_of_scalar {budget : Nat} {raw : MsgPack} (nesting : raw.nesting ≤ budget)
    (size : raw.size < lengthLimit) (scalar : raw.children = []) : Within budget raw :=
  ⟨nesting, sized_iff.mpr ⟨size, by simp [scalar]⟩⟩

section Level

variable {budget length : Nat} {s rest : List UInt8} {raw : MsgPack}

theorem within_stringBody (fits : length < lengthLimit)
    (done : (levelOf budget).stringBody length s = .ok (raw, rest)) : Within (budget + 1) raw := by
  rw [Level.stringBody, levelOf_budget] at done
  split at done
  · cases done
  · obtain ⟨bytes, rfl, rfl⟩ := exists_of_body done
    exact within_of_scalar (by rw [nesting]; omega) fits rfl

theorem within_binaryBody (fits : length < lengthLimit)
    (done : (levelOf budget).binaryBody length s = .ok (raw, rest)) : Within (budget + 1) raw := by
  rw [Level.binaryBody, levelOf_budget] at done
  split at done
  · cases done
  · obtain ⟨bytes, rfl, rfl⟩ := exists_of_body done
    exact within_of_scalar (by rw [nesting]; omega) fits rfl

theorem within_extensionBody (fits : length < lengthLimit)
    (done : (levelOf budget).extensionBody length s = .ok (raw, rest)) :
    Within (budget + 1) raw := by
  rw [Level.extensionBody, levelOf_budget] at done
  split at done
  · cases done
  · obtain ⟨type, -, behind, inner⟩ := exists_of_unsigned done
    split at inner
    · cases inner
    · obtain ⟨bytes, rfl, rfl⟩ := exists_of_body inner
      exact within_of_scalar (by rw [nesting]; omega) fits rfl

/-- A length field is too narrow for a length past the limit. -/
theorem within_of_lengthField {width : Nat} {next : Nat → List UInt8 → Read MsgPack}
    (narrow : 256 ^ width ≤ lengthLimit)
    (each : ∀ n < lengthLimit, ∀ behind, next n behind = .ok (raw, rest) → Within (budget + 1) raw)
    (done : unsigned width s next = .ok (raw, rest)) : Within (budget + 1) raw := by
  obtain ⟨n, bound, behind, inner⟩ := exists_of_unsigned done
  exact each n (Nat.lt_of_lt_of_le bound narrow) behind inner

theorem within_of_flat (flat : raw.nesting = 1) (size : raw.size = 0) (scalar : raw.children = []) :
    Within (budget + 1) raw := by
  apply within_of_scalar
  · omega
  · rw [size]
    decide
  · exact scalar

theorem within_of_numberField {width : Nat} {make : Nat → MsgPack}
    (flat : ∀ n, (make n).nesting = 1 ∧ (make n).size = 0 ∧ (make n).children = [])
    (done : (unsigned width s fun n s => .ok (make n, s)) = .ok (raw, rest)) :
    Within (budget + 1) raw := by
  obtain ⟨n, -, behind, inner⟩ := exists_of_unsigned done
  cases inner
  exact within_of_flat (flat n).1 (flat n).2.1 (flat n).2.2

section Containers

variable (below : ∀ less < budget, ∀ s raw rest, read less s = .ok (raw, rest) → Within less raw)

include below

theorem within_arrayBody (fits : length < lengthLimit)
    (done : (levelOf budget).arrayBody length s = .ok (raw, rest)) : Within (budget + 1) raw := by
  cases budget with
  | zero => simp [Level.arrayBody, levelOf] at done
  | succ budget =>
      simp only [Level.arrayBody, levelOf] at done
      cases inside : many (read budget) length [] s with
      | error fault => simp [inside] at done
      | ok both =>
          obtain ⟨items, behind⟩ := both
          simp only [inside] at done
          cases done
          have each : ∀ s result rest, read budget s = .ok (result, rest) → Within budget result :=
            below budget (Nat.lt_succ_self budget)
          obtain ⟨count, all⟩ := forall_of_many each (List.forall_mem_nil _) inside
          rw [List.length_nil, Nat.zero_add] at count
          constructor
          · have items : nestingOfItems items ≤ budget :=
              nestingOfItems_le_iff.mpr fun item member => (all item member).nesting
            rw [nesting]
            omega
          · exact sized_iff.mpr ⟨by rw [size, count]; exact fits, fun item member =>
              (all item member).sized⟩

theorem within_mapBody (fits : length < lengthLimit)
    (done : (levelOf budget).mapBody length s = .ok (raw, rest)) : Within (budget + 1) raw := by
  cases budget with
  | zero => simp [Level.mapBody, levelOf] at done
  | succ budget =>
      simp only [Level.mapBody, levelOf] at done
      cases inside : many (pair (read budget)) length [] s with
      | error fault => simp [inside] at done
      | ok both =>
          obtain ⟨pairs, behind⟩ := both
          simp only [inside] at done
          cases done
          have each : ∀ s result rest, pair (read budget) s = .ok (result, rest) →
              Within budget result.1 ∧ Within budget result.2 := by
            intro s result rest found
            exact both_of_pair (below budget (Nat.lt_succ_self budget)) found
          obtain ⟨count, all⟩ := forall_of_many each (List.forall_mem_nil _) inside
          rw [List.length_nil, Nat.zero_add] at count
          constructor
          · have pairs : nestingOfPairs pairs ≤ budget := by
              apply nestingOfPairs_le_iff.mpr
              intro pair member
              exact ⟨(all pair member).1.nesting, (all pair member).2.nesting⟩
            rw [nesting]
            omega
          · refine sized_iff.mpr ⟨by rw [size, count]; exact fits, fun child member => ?_⟩
            obtain ⟨pair, here, side⟩ := List.mem_flatMap.mp member
            rcases List.mem_pair.mp side with rfl | rfl
            · exact (all pair here).1.sized
            · exact (all pair here).2.sized

/-- What follows a marker is within one more than the budget of its level. -/
theorem within_afterMarker {marker : Nat}
    (done : (levelOf budget).afterMarker marker s = .ok (raw, rest)) : Within (budget + 1) raw := by
  have string (n : Nat) (fits : n < lengthLimit) (behind : List UInt8) :=
    @within_stringBody budget n behind rest raw fits
  have binary (n : Nat) (fits : n < lengthLimit) (behind : List UInt8) :=
    @within_binaryBody budget n behind rest raw fits
  have extension (n : Nat) (fits : n < lengthLimit) (behind : List UInt8) :=
    @within_extensionBody budget n behind rest raw fits
  have array (n : Nat) (fits : n < lengthLimit) (behind : List UInt8) :=
    @within_arrayBody budget n behind rest raw below fits
  have map (n : Nat) (fits : n < lengthLimit) (behind : List UInt8) :=
    @within_mapBody budget n behind rest raw below fits
  have short {n : Nat} (less : n < 0x20) : n < lengthLimit := Nat.lt_trans less (by decide)
  unfold Level.afterMarker at done
  split at done
  · cases done
    exact within_of_flat rfl rfl rfl
  split at done
  · exact map _ (short (by omega)) s done
  split at done
  · exact array _ (short (by omega)) s done
  split at done
  · exact string _ (short (by omega)) s done
  split at done
  · cases done
    exact within_of_flat rfl rfl rfl
  -- one marker for each width of a field
  split at done
  all_goals first
    | exact within_of_lengthField (by decide) binary done
    | exact within_of_lengthField (by decide) extension done
    | exact within_of_lengthField (by decide) string done
    | exact within_of_lengthField (by decide) array done
    | exact within_of_lengthField (by decide) map done
    | exact within_of_numberField (fun n => ⟨rfl, rfl, rfl⟩) done
    | exact extension _ (by decide) s done
    | cases done; exact within_of_flat rfl rfl rfl

end Containers

end Level

/-- What was read with a budget is within it. -/
theorem within_read {budget : Nat} {s rest : List UInt8} {raw : MsgPack}
    (done : read budget s = .ok (raw, rest)) : Within budget raw := by
  induction budget using Nat.strongRecOn generalizing s rest raw with
  | ind budget ih =>
      cases budget with
      | zero => cases done
      | succ budget =>
          have below : ∀ less < budget, ∀ s raw rest, read less s = .ok (raw, rest) →
              Within less raw := by
            intro less fewer s raw rest found
            exact ih less (by omega) found
          rw [read_succ] at done
          cases s with
          | nil => cases done
          | cons marker s => exact within_afterMarker below done

end ScriptHost.MsgPack
