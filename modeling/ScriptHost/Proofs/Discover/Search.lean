import ScriptHost.Proofs.Discover.Declaration

set_option autoImplicit false

/- The search for declarations. What a search leaves out behind a match belongs to the one
declaration in that match, and a mark that stands before a declaration is never left behind: so the
search finds all declarations that are not local, and no others, in the order of their places. -/
namespace ScriptHost.Discover

open Pattern (Match isWord)

variable {before s : List Char} {m : Match}

theorem boundary_mark {mark rest : List Char} (isMark : IsMark mark) :
    isWord before.getLast? ≠ isWord (mark ++ rest).head? ↔ Boundary before mark := by
  rw [isMark.head?, Boundary]

/-- A match is a declaration, with its mark or without one. -/
theorem mem_declaration : m ∈ declaration.matchesAt before.getLast? s ↔
    (∃ h named rest, IsHeading h named ∧ Boundary before s ∧ s = h ++ '(' :: rest ∧
        m = ⟨h ++ ['('], rest, [("name", named)]⟩) ∨
      ∃ mark h named rest, IsMark mark ∧ Boundary before mark ∧ IsHeading h named ∧
        Boundary (before ++ mark) (h ++ '(' :: rest) ∧ s = mark ++ (h ++ '(' :: rest) ∧
          m = ⟨mark ++ (h ++ ['(']), rest, [("name", named), ("local", mark)]⟩ := by
  simp only [declaration, Pattern.mem_both, Pattern.mem_maybe, Pattern.mem_group, mem_localMark,
    mem_heading]
  constructor
  · rintro ⟨_, ⟨_, ⟨mark, _, isMark, outside, rfl, rfl⟩, rfl⟩ | rfl, _,
      ⟨h, named, rest, isHeading, boundary, rfl, rfl⟩, rfl⟩
    · refine .inr ⟨mark, h, named, rest, isMark, (boundary_mark isMark).mp outside, isHeading, ?_,
        rfl, rfl⟩
      rw [Boundary, List.getLast?_append]
      exact boundary
    · exact .inl ⟨h, named, rest, isHeading, boundary, rfl, rfl⟩
  · rintro (⟨h, named, rest, isHeading, boundary, rfl, rfl⟩ |
      ⟨mark, h, named, rest, isMark, outside, isHeading, boundary, rfl, rfl⟩)
    · exact ⟨_, .inr rfl, _, ⟨h, named, rest, isHeading, boundary, rfl, rfl⟩, rfl⟩
    · rw [Boundary, List.getLast?_append] at boundary
      exact ⟨_, .inl ⟨_, ⟨mark, _, isMark, (boundary_mark isMark).mpr outside, rfl, rfl⟩, rfl⟩, _,
        ⟨h, named, rest, isHeading, boundary, rfl, rfl⟩, rfl⟩

/-- Where the pattern has no match stands no declaration, nor the mark of one. -/
theorem not_declares_of_none (none : declaration.matchesAt before.getLast? s = []) :
    (∀ declared, ¬ Declares before s declared) ∧
      ∀ mark after declared, IsMark mark → Boundary before mark → s = mark ++ after →
        ¬ Declares (before ++ mark) after declared := by
  constructor
  · rintro declared ⟨boundary, h, rest, isHeading, split⟩
    have found := mem_declaration.mpr (.inl ⟨h, _, rest, isHeading, boundary, split, rfl⟩)
    exact List.ne_nil_of_mem found none
  · rintro mark after declared isMark outside rfl ⟨boundary, h, rest, isHeading, rfl⟩
    have found := mem_declaration.mpr
      (.inr ⟨mark, h, _, rest, isMark, outside, isHeading, boundary, rfl, rfl⟩)
    exact List.ne_nil_of_mem found none

/-- The declarations that are not local among the matches of a search, with their places. -/
def globals (found : List (Nat × Match)) : List (Nat × String) :=
  found.filterMap fun found => (globalName? found.2).map (found.1, ·)

/-- A search stands behind a text and leaves some characters out. If it does, they end in a
parenthesis. Marks before the search are of declarations that begin before the search goes on. -/
structure Ready (before : List Char) (skip : Nat) (after : List Char) : Prop where
  closed : skip ≠ 0 → after[skip - 1]? = some '('
  settled : ∀ earlier mark rest declared, IsMark mark → Boundary earlier mark →
    before ++ after = earlier ++ (mark ++ rest) → Declares (earlier ++ mark) rest declared →
      earlier.length < before.length → earlier.length + mark.length < before.length + skip

theorem ready_start (text : List Char) : Ready [] 0 text :=
  ⟨fun some => absurd rfl some, fun _ _ _ _ _ _ _ _ early => absurd early (Nat.not_lt_zero _)⟩

/-- One character further a search leaves one character less out; a mark that begins there ends
before the parenthesis. -/
theorem Ready.advance {c : Char} {skip further : Nat} (ready : Ready before skip (c :: s))
    (fewer : skip ≤ further + 1) (closed : (c :: s)[further]? = some '(') :
    Ready (before ++ [c]) further s := by
  constructor
  · intro some
    obtain ⟨below, rfl⟩ := Nat.exists_eq_succ_of_ne_zero some
    exact closed
  · intro earlier mark rest declared isMark outside split declares early
    rw [List.append_assoc, List.singleton_append] at split
    rw [List.length_append, List.length_singleton] at early ⊢
    rcases Nat.lt_succ_iff_lt_or_eq.mp early with earlierStill | here
    · have behind :=
        ready.settled earlier mark rest declared isMark outside split declares earlierStill
      omega
    · obtain ⟨rfl, same⟩ := List.append_inj split here.symm
      by_contra beyond
      have inMark : further < mark.length := by omega
      rw [same, List.getElem?_append_left inMark] at closed
      exact isMark.ne_parenthesis _ (List.mem_of_getElem? closed) rfl

theorem Ready.advance_of_none {c : Char} (ready : Ready before 0 (c :: s))
    (none : declaration.matchesAt before.getLast? (c :: s) = []) : Ready (before ++ [c]) 0 s := by
  refine ⟨fun some => absurd rfl some, ?_⟩
  intro earlier mark rest declared isMark outside split declares early
  rw [List.append_assoc, List.singleton_append] at split
  rw [List.length_append, List.length_singleton] at early ⊢
  rcases Nat.lt_succ_iff_lt_or_eq.mp early with earlierStill | here
  · have behind :=
      ready.settled earlier mark rest declared isMark outside split declares earlierStill
    omega
  · obtain ⟨rfl, same⟩ := List.append_inj split here.symm
    exact absurd declares ((not_declares_of_none none).2 mark rest declared isMark outside same)

theorem declaresGlobal_here {declared : String} :
    DeclaresGlobal (before ++ s) before.length declared ↔
      Declares before s declared ∧ ¬ EndsInMark before := by
  constructor
  · rintro ⟨front, back, split, length, declares⟩
    obtain ⟨rfl, rfl⟩ := List.append_inj split length.symm
    exact declares
  · exact fun declares => ⟨before, s, rfl, rfl, declares⟩

/-- A declaration further on begins behind some of the characters from here. -/
theorem exists_of_declaresGlobal {place : Nat} {declared : String}
    (declares : DeclaresGlobal (before ++ s) place declared) (late : before.length ≤ place) :
    ∃ x y, s = x ++ y ∧ place = before.length + x.length ∧ Declares (before ++ x) y declared ∧
      ¬ EndsInMark (before ++ x) := by
  obtain ⟨front, back, split, rfl, here⟩ := declares
  have isPrefix : before <+: front := by
    refine List.prefix_of_prefix_length_le (List.prefix_append before s) ?_ late
    rw [split]
    exact List.prefix_append front back
  obtain ⟨x, rfl⟩ := isPrefix
  rw [List.append_assoc] at split
  exact ⟨x, back, List.append_cancel_left split, List.length_append, here⟩

/-- Among the characters of a match there is one declaration, and it is local if it is marked. -/
theorem declaresGlobal_within {place : Nat} {declared : String} {mark h rest named : List Char}
    (marked : mark = [] ∨ IsMark mark ∧ Boundary before mark) (isHeading : IsHeading h named)
    (late : before.length ≤ place) (short : place ≤ before.length + (mark ++ h).length)
    (declares : DeclaresGlobal (before ++ (mark ++ (h ++ '(' :: rest))) place declared) :
    mark = [] ∧ place = before.length ∧ named = declared.toList := by
  obtain ⟨x, y, split, rfl, ⟨-, other, rest', isOther, rfl⟩, free⟩ :=
    exists_of_declaresGlobal declares late
  have clean : ∀ c ∈ mark, c ≠ '(' := by
    rcases marked with rfl | ⟨isMark, -⟩
    · exact List.forall_mem_nil _
    · exact isMark.ne_parenthesis
  obtain ⟨rfl, same⟩ := heading_within clean isHeading isOther split (by omega)
  rcases marked with rfl | ⟨isMark, outside⟩
  · exact ⟨rfl, rfl, same⟩
  · exact absurd ⟨before, x, isMark, outside, rfl⟩ free

theorem mem_globals_cons {found : Nat × Match} {later : List (Nat × Match)} {place : Nat}
    {declared : String} : (place, declared) ∈ globals (found :: later) ↔
      (place = found.1 ∧ globalName? found.2 = some declared) ∨
        (place, declared) ∈ globals later := by
  rw [globals, List.filterMap_cons, globals]
  cases globalName? found.2 with
  | none => simp
  | some name => simp [eq_comm]

/-- A match takes what stands up to the parenthesis, and it counts if it has no mark. -/
theorem exists_of_mem_declaration (found : m ∈ declaration.matchesAt before.getLast? s) :
    ∃ mark h named rest, (mark = [] ∨ IsMark mark ∧ Boundary before mark) ∧ IsHeading h named ∧
      s = mark ++ (h ++ '(' :: rest) ∧ m.taken.length = (mark ++ h).length + 1 ∧
        ∀ declared, globalName? m = some declared ↔
          mark = [] ∧ Boundary before s ∧ named = declared.toList := by
  rcases mem_declaration.mp found with ⟨h, named, rest, isHeading, boundary, rfl, rfl⟩ |
    ⟨mark, h, named, rest, isMark, outside, isHeading, -, rfl, rfl⟩
  · refine ⟨[], h, named, rest, .inl rfl, isHeading, rfl, by simp, fun declared => ?_⟩
    have name : globalName? ⟨h ++ ['('], rest, [("name", named)]⟩ = some (String.ofList named) :=
      rfl
    rw [name, Option.some.injEq]
    constructor
    · rintro rfl
      exact ⟨rfl, boundary, String.toList_ofList.symm⟩
    · rintro ⟨-, -, rfl⟩
      exact String.ofList_toList
  · refine ⟨mark, h, named, rest, .inr ⟨isMark, outside⟩, isHeading, rfl, by simp [Nat.add_assoc],
      fun declared => ?_⟩
    have name : globalName? ⟨mark ++ (h ++ ['(']), rest, [("name", named), ("local", mark)]⟩ =
      none := rfl
    refine iff_of_false (by simp [name]) ?_
    rintro ⟨rfl, -⟩
    exact isMark.ne_nil rfl

theorem taken_pos (found : m ∈ declaration.matchesAt before.getLast? s) : 0 < m.taken.length := by
  obtain ⟨mark, h, named, rest, -, -, -, taken, -⟩ := exists_of_mem_declaration found
  omega

/-- A match that stands at the end of a text accounts for all declarations that begin in it: it is
one itself, unless it is marked as local. -/
theorem declaresGlobal_match {place : Nat} {declared : String} (ready : Ready before 0 s)
    (found : m ∈ declaration.matchesAt before.getLast? s) :
    before.length ≤ place ∧ DeclaresGlobal (before ++ s) place declared ↔
      (place = before.length ∧ globalName? m = some declared) ∨
        (before.length + m.taken.length ≤ place ∧ DeclaresGlobal (before ++ s) place declared) := by
  obtain ⟨mark, h, named, rest, marked, isHeading, rfl, taken, name⟩ :=
    exists_of_mem_declaration found
  rw [name, taken]
  constructor
  · rintro ⟨late, declares⟩
    by_cases short : place ≤ before.length + (mark ++ h).length
    · obtain ⟨unmarked, rfl, same⟩ := declaresGlobal_within marked isHeading late short declares
      exact .inl ⟨rfl, unmarked, (declaresGlobal_here.mp declares).1.1, same⟩
    · exact .inr ⟨by omega, declares⟩
  · rintro (⟨rfl, rfl, boundary, rfl⟩ | ⟨late, declares⟩)
    · have declares : Declares before ([] ++ (h ++ '(' :: rest)) declared :=
        ⟨boundary, h, rest, isHeading, rfl⟩
      refine ⟨Nat.le_refl _, declaresGlobal_here.mpr ⟨declares, ?_⟩⟩
      rintro ⟨earlier, mark, isMark, outside, rfl⟩
      -- a mark right before the match would have been taken with it
      have pos := List.length_pos_of_ne_nil isMark.ne_nil
      have behind := ready.settled earlier mark _ declared isMark outside (List.append_assoc _ _ _)
        declares (by simpa using pos)
      simp at behind
    · exact ⟨by omega, declares⟩

theorem Ready.advance_of_match {c : Char} (ready : Ready before 0 (c :: s))
    (found : m ∈ declaration.matchesAt before.getLast? (c :: s)) :
    Ready (before ++ [c]) (m.taken.length - 1) s := by
  obtain ⟨mark, h, named, rest, -, -, split, taken, -⟩ := exists_of_mem_declaration found
  apply ready.advance (Nat.zero_le _)
  rw [split, taken]
  simp

/-- From wherever a search stands, it finds the declarations that are not local behind the
characters that it leaves out. -/
theorem mem_globals_searchFrom {skip place : Nat} {declared : String}
    (ready : Ready before skip s) :
    (place, declared) ∈ globals (declaration.searchFrom skip before.length before.getLast? s) ↔
      before.length + skip ≤ place ∧ DeclaresGlobal (before ++ s) place declared := by
  induction s generalizing before skip with
  | nil =>
      refine iff_of_false (by simp [globals, Pattern.searchFrom]) ?_
      rintro ⟨late, declares⟩
      obtain ⟨x, y, split, -, ⟨-, h, rest, -, rfl⟩, -⟩ :=
        exists_of_declaresGlobal declares (by omega)
      simp at split
  | cons c s ih =>
      have later (skip : Nat) (next : Ready (before ++ [c]) skip s) :
          (place, declared) ∈
              globals (declaration.searchFrom skip (before.length + 1) (some c) s) ↔
            before.length + 1 + skip ≤ place ∧
              DeclaresGlobal (before ++ c :: s) place declared := by
        simpa using ih next
      cases skip with
      | succ skip =>
          have next := ready.advance (Nat.le_refl _) (ready.closed (Nat.succ_ne_zero skip))
          rw [Pattern.searchFrom_skip, later skip next]
          exact and_congr_left fun _ => by omega
      | zero =>
          cases preferred : (declaration.matchesAt before.getLast? (c :: s)).head? with
          | none =>
              have none := List.head?_eq_none_iff.mp preferred
              rw [Pattern.searchFrom_of_none none, later 0 (ready.advance_of_none none)]
              refine and_congr_left fun declares => ?_
              have elsewhere : place ≠ before.length := by
                rintro rfl
                exact (not_declares_of_none none).1 declared (declaresGlobal_here.mp declares).1
              omega
          | some m =>
              have found := List.mem_of_head? preferred
              have further : before.length + 1 + (m.taken.length - 1) =
                  before.length + m.taken.length := by
                have pos := taken_pos found
                omega
              rw [Pattern.searchFrom_of_match preferred, mem_globals_cons,
                later _ (ready.advance_of_match found), further]
              exact (declaresGlobal_match ready found).symm

/-- Of places in ascending order, each name is kept at its first. -/
theorem pairwise_eraseDups (found : List (Nat × String))
    (ascend : found.Pairwise fun one other => one.1 < other.1) :
    (found.map Prod.snd).eraseDups.Pairwise fun first second =>
      ∃ place, (place, first) ∈ found ∧ ∀ other, (other, second) ∈ found → place < other := by
  match found, ascend with
  | [], _ => exact List.Pairwise.nil
  | (place, name) :: rest, ascend =>
      obtain ⟨least, restAscend⟩ := List.pairwise_cons.mp ascend
      let others := rest.filter fun found => found.2 != name
      have names : (rest.map Prod.snd).filter (fun other => !other == name) =
          others.map Prod.snd := by
        rw [List.filter_map]
        rfl
      have mem_others {found : Nat × String} : found ∈ others ↔ found ∈ rest ∧ found.2 ≠ name := by
        simp [others]
      rw [List.map_cons, List.eraseDups_cons, names]
      refine List.pairwise_cons.mpr ⟨fun second member => ?_, ?_⟩
      · obtain ⟨_, inside, rfl⟩ := List.mem_map.mp (List.mem_eraseDups.mp member)
        refine ⟨place, List.mem_cons_self, fun other there => ?_⟩
        rcases List.mem_cons.mp there with same | later
        · exact absurd (Prod.ext_iff.mp same).2 (mem_others.mp inside).2
        · exact least _ later
      · have behind := pairwise_eraseDups others (restAscend.filter _)
        refine behind.imp_of_mem fun {first second} _ member ordered => ?_
        obtain ⟨here, inOthers, before⟩ := ordered
        obtain ⟨⟨_, _⟩, inside, rfl⟩ := List.mem_map.mp (List.mem_eraseDups.mp member)
        refine ⟨here, List.mem_cons_of_mem _ (mem_others.mp inOthers).1, fun other there => ?_⟩
        rcases List.mem_cons.mp there with same | later
        · exact absurd (Prod.ext_iff.mp same).2 (mem_others.mp inside).2
        · exact before other (mem_others.mpr ⟨later, (mem_others.mp inside).2⟩)
termination_by found.length
decreasing_by exact Nat.lt_succ_of_le (List.length_filter_le _ _)

theorem pairwise_globals {found : List (Nat × Match)}
    (ascend : found.Pairwise fun one other => one.1 < other.1) :
    (globals found).Pairwise fun one other => one.1 < other.1 := by
  rw [globals, List.pairwise_filterMap]
  refine ascend.imp fun {one other} less first here second there => ?_
  obtain ⟨_, -, rfl⟩ := Option.map_eq_some_iff.mp here
  obtain ⟨_, -, rfl⟩ := Option.map_eq_some_iff.mp there
  exact less

theorem discover_eq (source : String) :
    discover source = ((globals (declaration.search source.toList)).map Prod.snd).eraseDups := by
  rw [discover, globals, List.map_filterMap]
  congr 2
  funext found
  rw [Option.map_map]
  exact Option.map_id'.symm

/-- The names that are found in a source are those of its declarations that are not local, each
once, in the order of their first ones. -/
theorem discover_declared (source : String) :
    (discover source).Nodup ∧
      (∀ declared, declared ∈ discover source ↔
        ∃ place, DeclaresGlobal source.toList place declared) ∧
      (discover source).Pairwise fun first second =>
        ∃ place, DeclaresGlobal source.toList place first ∧
          ∀ other, DeclaresGlobal source.toList other second → place < other := by
  have found {place : Nat} {declared : String} :
      (place, declared) ∈ globals (declaration.search source.toList) ↔
        DeclaresGlobal source.toList place declared := by
    simpa [Pattern.search] using mem_globals_searchFrom (ready_start source.toList)
  have ascend : (declaration.search source.toList).Pairwise fun one other => one.1 < other.1 :=
    Pattern.pairwise_searchFrom
  have ordered := pairwise_eraseDups _ (pairwise_globals ascend)
  rw [← discover_eq] at ordered
  simp only [found] at ordered
  refine ⟨ordered.imp ?_, fun declared => ?_, ordered⟩
  · rintro first _ ⟨place, declares, less⟩ rfl
    exact absurd (less place declares) (Nat.lt_irrefl _)
  · rw [discover_eq, List.mem_eraseDups, List.mem_map]
    constructor
    · rintro ⟨⟨place, _⟩, member, rfl⟩
      exact ⟨place, found.mp member⟩
    · rintro ⟨place, declares⟩
      exact ⟨(place, declared), found.mpr declares, rfl⟩

/-- A mark counts across lines, and a word that only ends in `function` declares nothing. -/
example : discover "local\n function f() myfunction g() function h (x) function h()" = ["h"] := by
  decide

end ScriptHost.Discover
