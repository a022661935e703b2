set_option autoImplicit false

namespace ScriptHost

/-- Whether a code point lies in one of some ranges, which ascend and include both ends. -/
def inRanges (code : Nat) : List (Nat × Nat) → Bool
  | [] => false
  | (first, last) :: rest =>
      if code < first then false else if code ≤ last then true else inRanges code rest

end ScriptHost
