import ScriptHost.Discover
import ScriptHost.Proofs.Text.Pattern

set_option autoImplicit false

namespace ScriptHost.Discover

open Pattern (Match isWord)

def AllBlank (s : List Char) : Prop := ∀ c ∈ s, isBlank c = true

def IsName (s : List Char) : Prop :=
  ∃ first more, s = first :: more ∧ isNameStart first = true ∧ ∀ c ∈ more, isNameChar c = true

/-- The word `local` and white space. -/
def IsMark (s : List Char) : Prop :=
  ∃ gap, gap ≠ [] ∧ AllBlank gap ∧ s = "local".toList ++ gap

/-- The word `function`, white space, a name, and white space that may be missing. -/
def IsHeading (s named : List Char) : Prop :=
  ∃ gap more, gap ≠ [] ∧ AllBlank gap ∧ IsName named ∧ AllBlank more ∧
    s = "function".toList ++ (gap ++ (named ++ more))

/-- A word begins or ends between two texts. -/
def Boundary (before after : List Char) : Prop := isWord before.getLast? ≠ isWord after.head?

/-- A text behind another one begins with a declaration. -/
def Declares (before after : List Char) (declared : String) : Prop :=
  Boundary before after ∧
    ∃ heading rest, IsHeading heading declared.toList ∧ after = heading ++ '(' :: rest

/-- What follows a text is marked as local. -/
def EndsInMark (before : List Char) : Prop :=
  ∃ earlier mark, IsMark mark ∧ Boundary earlier mark ∧ before = earlier ++ mark

/-- At a place of a text stands a declaration that is not local. -/
def DeclaresGlobal (text : List Char) (place : Nat) (declared : String) : Prop :=
  ∃ before after, text = before ++ after ∧ before.length = place ∧
    Declares before after declared ∧ ¬ EndsInMark before

theorem isNameChar_of_isNameStart {c : Char} (start : isNameStart c = true) :
    isNameChar c = true := by
  rw [isNameChar, start, Bool.true_or]

theorem isBlank_of_isNameChar {c : Char} (plain : isNameChar c = true) : isBlank c = false := by
  have ascii : ∀ code < 128, isNameChar (Char.ofNat code) = true →
      isBlank (Char.ofNat code) = false := by decide
  have small := ascii c.toNat (lt_of_isNameChar plain)
  rw [Char.ofNat_toNat] at small
  exact small plain

theorem isNameChar_of_isBlank {c : Char} (blank : isBlank c = true) : isNameChar c = false := by
  by_contra plain
  rw [isBlank_of_isNameChar (Bool.not_eq_false _ ▸ plain)] at blank
  cases blank

theorem IsName.ne_nil {named : List Char} (isName : IsName named) : named ≠ [] := by
  obtain ⟨first, more, rfl, -⟩ := isName
  exact List.cons_ne_nil first more

theorem IsName.plain {named : List Char} (isName : IsName named) :
    ∀ c ∈ named, isNameChar c = true := by
  obtain ⟨first, more, rfl, start, others⟩ := isName
  exact List.forall_mem_cons.mpr ⟨isNameChar_of_isNameStart start, others⟩

theorem AllBlank.ne_parenthesis {s : List Char} (blank : AllBlank s) : ∀ c ∈ s, c ≠ '(' := by
  rintro c member rfl
  cases blank _ member

theorem IsMark.ne_nil {mark : List Char} (isMark : IsMark mark) : mark ≠ [] := by
  obtain ⟨gap, -, -, rfl⟩ := isMark
  exact List.cons_ne_nil 'l' _

theorem IsMark.ne_parenthesis {mark : List Char} (isMark : IsMark mark) : ∀ c ∈ mark, c ≠ '(' := by
  obtain ⟨gap, -, blank, rfl⟩ := isMark
  exact List.forall_mem_append.mpr ⟨by simp, blank.ne_parenthesis⟩

theorem IsMark.head? {mark : List Char} (isMark : IsMark mark) (rest : List Char) :
    (mark ++ rest).head? = mark.head? := by
  obtain ⟨gap, -, -, rfl⟩ := isMark
  rfl

theorem IsHeading.ne_parenthesis {heading named : List Char} (isHeading : IsHeading heading named) :
    ∀ c ∈ heading, c ≠ '(' := by
  obtain ⟨gap, more, -, blank, isName, blankMore, rfl⟩ := isHeading
  simp only [List.forall_mem_append]
  refine ⟨by simp, blank.ne_parenthesis, fun c member => ?_, blankMore.ne_parenthesis⟩
  exact ne_of_isNameChar (isName.plain c member) rfl

/-- Where a run of characters of a class ends is fixed by what follows it. -/
theorem run_unique {p : Char → Bool} {a b x y : List Char} (first : ∀ c ∈ a, p c = true)
    (second : ∀ c ∈ b, p c = true) (stops : ∀ c ∈ x.head?, p c = false)
    (stops' : ∀ c ∈ y.head?, p c = false) (same : a ++ x = b ++ y) : a = b ∧ x = y := by
  induction a generalizing b with
  | nil =>
      cases b with
      | nil => exact ⟨rfl, same⟩
      | cons d b =>
          rw [List.nil_append] at same
          have stop := stops d (by rw [same]; rfl)
          rw [second d List.mem_cons_self] at stop
          cases stop
  | cons c a ih =>
      cases b with
      | nil =>
          rw [List.nil_append] at same
          have stop := stops' c (by rw [← same]; rfl)
          rw [first c List.mem_cons_self] at stop
          cases stop
      | cons d b =>
          obtain ⟨rfl, rest⟩ := List.cons.inj same
          obtain ⟨run, others⟩ := ih (List.forall_mem_cons.mp first).2
            (List.forall_mem_cons.mp second).2 rest
          exact ⟨by rw [run], others⟩

theorem stops_append {p : Char → Bool} {a : List Char} (nonempty : a ≠ [])
    (none : ∀ c ∈ a, p c = false) (x : List Char) : ∀ c ∈ (a ++ x).head?, p c = false := by
  cases a with
  | nil => exact absurd rfl nonempty
  | cons d a =>
      intro c here
      obtain rfl : d = c := Option.some.inj here
      exact none d List.mem_cons_self

/-- Read from its end, a text is in one way a heading behind something else: its parts are runs of
white space and of other characters. -/
theorem heading_unique {x y heading other named named' : List Char}
    (isHeading : IsHeading heading named) (isOther : IsHeading other named')
    (same : x ++ heading = y ++ other) : x = y ∧ named = named' := by
  obtain ⟨gap, more, some, blank, isName, blankMore, rfl⟩ := isHeading
  obtain ⟨gap', more', some', blank', isName', blankMore', rfl⟩ := isOther
  have turned := congrArg List.reverse same
  simp only [List.reverse_append, List.append_assoc] at turned
  have nameStops {named : List Char} (isName : IsName named) (z : List Char) :
      ∀ c ∈ (named.reverse ++ z).head?, isBlank c = false := by
    refine stops_append (by simpa using isName.ne_nil) (fun c member => ?_) z
    exact isBlank_of_isNameChar (isName.plain c (List.mem_reverse.mp member))
  have gapStops {gap : List Char} (some : gap ≠ []) (blank : AllBlank gap) (z : List Char) :
      ∀ c ∈ (gap.reverse ++ z).head?, isNameChar c = false := by
    refine stops_append (by simpa using some) (fun c member => ?_) z
    exact isNameChar_of_isBlank (blank c (List.mem_reverse.mp member))
  have letters : "function".toList.reverse.all (fun c => !isBlank c) = true := by decide
  have wordStops (z : List Char) :
      ∀ c ∈ ("function".toList.reverse ++ z).head?, isBlank c = false := by
    apply stops_append (by decide)
    simpa only [List.all_eq_true, Bool.not_eq_true'] using letters
  have reversed {p : Char → Bool} {s : List Char} (all : ∀ c ∈ s, p c = true) :
      ∀ c ∈ s.reverse, p c = true := fun c member => all c (List.mem_reverse.mp member)
  obtain ⟨-, names⟩ := run_unique (reversed blankMore) (reversed blankMore')
    (nameStops isName _) (nameStops isName' _) turned
  obtain ⟨name, gaps⟩ := run_unique (reversed isName.plain) (reversed isName'.plain)
    (gapStops some blank _) (gapStops some' blank' _) names
  obtain ⟨-, words⟩ :=
    run_unique (reversed blank) (reversed blank') (wordStops _) (wordStops _) gaps
  exact ⟨List.reverse_injective (List.append_cancel_left words), List.reverse_injective name⟩

/-- A declaration that begins before another one's parenthesis is that other one. -/
theorem heading_within {start heading rest x other rest' named named' : List Char}
    (clean : ∀ c ∈ start, c ≠ '(') (isHeading : IsHeading heading named)
    (isOther : IsHeading other named')
    (same : start ++ (heading ++ '(' :: rest) = x ++ (other ++ '(' :: rest'))
    (short : x.length ≤ (start ++ heading).length) : x = start ∧ named = named' := by
  obtain ⟨t, inside⟩ : ∃ t, start ++ heading = x ++ t := by
    have isPrefix : x <+: start ++ heading := by
      apply List.prefix_of_prefix_length_le (List.prefix_append x (other ++ '(' :: rest')) ?_ short
      rw [← same, ← List.append_assoc]
      exact List.prefix_append _ _
    exact isPrefix.imp fun _ => Eq.symm
  have tail : t ++ '(' :: rest = other ++ '(' :: rest' := by
    rw [← List.append_assoc, inside, List.append_assoc] at same
    exact List.append_cancel_left same
  have free : ∀ c ∈ t, (c != '(') = true := by
    intro c member
    have there : c ∈ start ++ heading := inside ▸ List.mem_append_right x member
    rw [bne_iff_ne]
    rcases List.mem_append.mp there with early | late
    · exact clean c early
    · exact isHeading.ne_parenthesis c late
  have freeOther : ∀ c ∈ other, (c != '(') = true :=
    fun c member => bne_iff_ne.mpr (isOther.ne_parenthesis c member)
  obtain ⟨rfl, -⟩ := run_unique free freeOther (by simp) (by simp) tail
  obtain ⟨front, name⟩ := heading_unique isHeading isOther inside
  exact ⟨front.symm, name⟩

variable {before : Option Char} {s : List Char} {m : Match}

theorem mem_blanks : m ∈ blanks.matchesAt before s ↔
    ∃ gap rest, gap ≠ [] ∧ AllBlank gap ∧ s = gap ++ rest ∧ m = ⟨gap, rest, []⟩ := by
  simp only [blanks, Pattern.mem_both, Pattern.mem_one, Pattern.mem_many]
  constructor
  · rintro ⟨_, ⟨c, _, rfl, blank, rfl⟩, _, ⟨run, rest, rfl, all, rfl⟩, rfl⟩
    exact ⟨c :: run, rest, List.cons_ne_nil c run, List.forall_mem_cons.mpr ⟨blank, all⟩, rfl, rfl⟩
  · rintro ⟨gap, rest, some, all, rfl, rfl⟩
    cases gap with
    | nil => exact absurd rfl some
    | cons c run =>
        obtain ⟨blank, others⟩ := List.forall_mem_cons.mp all
        exact ⟨_, ⟨c, run ++ rest, rfl, blank, rfl⟩, _, ⟨run, rest, rfl, others, rfl⟩, rfl⟩

theorem mem_name : m ∈ name.matchesAt before s ↔
    ∃ named rest, IsName named ∧ s = named ++ rest ∧ m = ⟨named, rest, []⟩ := by
  simp only [name, Pattern.mem_both, Pattern.mem_one, Pattern.mem_many]
  constructor
  · rintro ⟨_, ⟨c, _, rfl, start, rfl⟩, _, ⟨run, rest, rfl, all, rfl⟩, rfl⟩
    exact ⟨c :: run, rest, ⟨c, run, rfl, start, all⟩, rfl, rfl⟩
  · rintro ⟨_, rest, ⟨c, run, rfl, start, all⟩, rfl, rfl⟩
    exact ⟨_, ⟨c, run ++ rest, rfl, start, rfl⟩, _, ⟨run, rest, rfl, all, rfl⟩, rfl⟩

theorem mem_localMark : m ∈ localMark.matchesAt before s ↔
    ∃ mark rest, IsMark mark ∧ isWord before ≠ isWord s.head? ∧ s = mark ++ rest ∧
      m = ⟨mark, rest, []⟩ := by
  simp only [localMark, Pattern.mem_both, Pattern.mem_boundary, Pattern.mem_literal, mem_blanks]
  constructor
  · rintro ⟨_, ⟨boundary, rfl⟩, _, ⟨_, ⟨_, rfl, rfl⟩, _, ⟨gap, rest, some, all, rfl, rfl⟩, rfl⟩,
      rfl⟩
    exact ⟨_, rest, ⟨gap, some, all, rfl⟩, boundary, rfl, rfl⟩
  · rintro ⟨_, rest, ⟨gap, some, all, rfl⟩, boundary, rfl, rfl⟩
    exact ⟨_, ⟨boundary, rfl⟩, _, ⟨_, ⟨gap ++ rest, rfl, rfl⟩, _, ⟨gap, rest, some, all, rfl, rfl⟩,
      rfl⟩, rfl⟩

theorem mem_heading : m ∈ heading.matchesAt before s ↔
    ∃ h named rest, IsHeading h named ∧ isWord before ≠ isWord s.head? ∧ s = h ++ '(' :: rest ∧
      m = ⟨h ++ ['('], rest, [("name", named)]⟩ := by
  simp only [heading, Pattern.mem_both, Pattern.mem_boundary, Pattern.mem_literal,
    Pattern.mem_group, Pattern.mem_many, mem_blanks, mem_name]
  constructor
  · rintro ⟨_, ⟨boundary, rfl⟩, _, ⟨_, ⟨_, rfl, rfl⟩, _, ⟨_, ⟨gap, _, some, all, rfl, rfl⟩, _,
      ⟨_, ⟨_, ⟨named, _, isName, rfl, rfl⟩, rfl⟩, _, ⟨_, ⟨more, _, rfl, blank, rfl⟩, _,
        ⟨rest, rfl, rfl⟩, rfl⟩, rfl⟩, rfl⟩, rfl⟩, rfl⟩
    refine ⟨_, named, rest, ⟨gap, more, some, all, isName, blank, rfl⟩, boundary, ?_, ?_⟩
    · simp
    · simp
  · rintro ⟨_, named, rest, ⟨gap, more, some, all, isName, blank, rfl⟩, boundary, rfl, rfl⟩
    refine ⟨_, ⟨boundary, rfl⟩, _, ⟨_, ⟨gap ++ (named ++ (more ++ '(' :: rest)), by simp, rfl⟩, _,
      ⟨_, ⟨gap, _, some, all, rfl, rfl⟩, _, ⟨_, ⟨_, ⟨named, _, isName, rfl, rfl⟩, rfl⟩, _,
        ⟨_, ⟨more, _, rfl, blank, rfl⟩, _, ⟨rest, rfl, rfl⟩, rfl⟩, rfl⟩, rfl⟩, rfl⟩, ?_⟩
    simp

end ScriptHost.Discover
