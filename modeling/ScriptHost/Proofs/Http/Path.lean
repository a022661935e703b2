import Mathlib.Data.List.TakeWhile
import ScriptHost.Discover
import ScriptHost.Http.Endpoint
import ScriptHost.Proofs.Text.Utf8

set_option autoImplicit false

namespace ScriptHost

theorem percentDecode_of_not_mem {bytes : List UInt8} (plain : 37 ∉ bytes) :
    percentDecode bytes = bytes := by
  induction bytes with
  | nil => rfl
  | cons byte rest ih =>
      rw [List.mem_cons, not_or] at plain
      rw [percentDecode, ih plain.2]
      rintro a b tail rfl
      exact absurd rfl plain.1

/-- A name of such characters stands for itself in a path. -/
theorem pathText?_of_plain {name : String}
    (plain : ∀ c ∈ name.toList, Discover.isNameChar c = true) : pathText? name = some name := by
  have noPercent : 37 ∉ utf8 name := by
    rw [utf8_of_ascii fun c member => Discover.lt_of_isNameChar (plain c member), ascii]
    intro member
    obtain ⟨c, inside, same⟩ := List.mem_map.mp member
    have small := Discover.lt_of_isNameChar (plain c inside)
    have code : c.toNat = ('%' : Char).toNat := by
      have bytes := congrArg UInt8.toNat same
      rw [UInt8.toNat_ofNat', Nat.mod_eq_of_lt (by omega)] at bytes
      exact bytes
    exact Discover.ne_of_isNameChar (plain c inside) rfl (Char.toNat_inj.mp code)
  rw [pathText?, percentDecode_of_not_mem noPercent, ofUtf8?_utf8]

namespace Endpoint

/-- The path that calls of a function are sent to. -/
def callPath (name : String) : String := "/api/functions/" ++ name ++ "/call"

theorem ofPath?_callPath {name : String}
    (plain : ∀ c ∈ name.toList, Discover.isNameChar c = true) :
    ofPath? (callPath name) = some (.call name) := by
  have noMark {mark : Char} (special : Discover.isNameChar mark = false) : mark ∉ name.toList :=
    fun member => Discover.ne_of_isNameChar (plain mark member) special rfl
  let segments := [[], "api".toList, "functions".toList, name.toList, "call".toList]
  have text : (callPath name).toList = ['/'].intercalate segments := by
    show ("/api/functions/" ++ name ++ "/call").toList = _
    simp [segments, List.intercalate]
  have whole : (callPath name).toList.takeWhile (fun c => c ≠ '?' && c ≠ '#') =
      (callPath name).toList := by
    have noQuery : '?' ∉ (callPath name).toList := by
      simpa [text, segments, List.intercalate] using noMark rfl
    have noFragment : '#' ∉ (callPath name).toList := by
      simpa [text, segments, List.intercalate] using noMark rfl
    rw [List.takeWhile_eq_self_iff]
    intro c member
    simp [ne_of_mem_of_not_mem member noQuery, ne_of_mem_of_not_mem member noFragment]
  have split : (callPath name).toList.splitOn '/' = segments := by
    rw [text]
    apply List.splitOn_intercalate
    · simpa [segments] using noMark rfl
    · exact List.cons_ne_nil _ _
  rw [ofPath?, whole, split]
  simp [segments]

end Endpoint

end ScriptHost
