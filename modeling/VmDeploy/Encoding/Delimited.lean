import Mathlib.Data.List.Infix

/-! Lists of contents joined by known delimiters, and when the joined text has one reading.

A delimiter may also occur in the contents. The reading is still the only one when no delimiter
can be moved between its two neighbours: a reading that differs moves some delimiter that far. -/

set_option autoImplicit false

namespace Delimited

variable {A : Type}

def joined : List (List A) → List (List A) → List A
  | delimiter :: delimiters, content :: contents =>
      content ++ (delimiter ++ joined delimiters contents)
  | [], content :: _ => content
  | _, [] => []

/-- The delimiter cuts its two neighbours, joined by it, in one place only. -/
def SoleCut (delimiter first second : List A) : Prop :=
  ∀ front back, first ++ (delimiter ++ second) = front ++ (delimiter ++ back) → front = first

def SoleCuts : List (List A) → List (List A) → Prop
  | delimiter :: delimiters, first :: second :: rest =>
      SoleCut delimiter first second ∧ SoleCuts delimiters (second :: rest)
  | _, _ => True

theorem joined_head (delimiters : List (List A)) (content : List A) (contents : List (List A)) :
    joined delimiters (content :: contents) = content ++ joined delimiters ([] :: contents) := by
  cases delimiters with
  | nil => simp [joined]
  | cons delimiter delimiters => simp [joined]

-- No reading has its first delimiter further right: the next delimiter would be moved, too.
theorem no_later_cut {delimiters : List (List A)} {delimiter first second late other : List A}
    {rest others : List (List A)} (cuts : SoleCuts (delimiter :: delimiters) (first :: second :: rest))
    (counted : rest.length = delimiters.length) (alike : others.length = rest.length)
    (same : first ++ (delimiter ++ joined delimiters (second :: rest)) =
      late ++ (delimiter ++ joined delimiters (other :: others))) :
    late.length ≤ first.length := by
  induction delimiters generalizing delimiter first second late other rest others with
  | nil =>
    obtain rfl := List.eq_nil_of_length_eq_zero counted
    obtain rfl := List.eq_nil_of_length_eq_zero alike
    exact (congrArg List.length (cuts.1 late other same)).le
  | cons next delimiters ih =>
    obtain ⟨third, rest, rfl⟩ := List.exists_cons_of_length_eq_add_one counted
    obtain ⟨fourth, others, rfl⟩ := List.exists_cons_of_length_eq_add_one alike
    simp only [List.length_cons, Nat.add_right_cancel_iff] at counted alike
    simp only [joined] at same
    have regrouped : (first ++ (delimiter ++ second)) ++ (next ++ joined delimiters (third :: rest)) =
        (late ++ delimiter) ++ (other ++ (next ++ joined delimiters (fourth :: others))) := by
      simpa using same
    rcases List.append_eq_append_iff.mp regrouped with
      ⟨more, beyond, later⟩ | ⟨more, inside, -⟩
    · have moved : second ++ (next ++ joined delimiters (third :: rest)) =
          (second ++ (more ++ other)) ++ (next ++ joined delimiters (fourth :: others)) := by
        rw [later]
        simp
      have bound := ih cuts.2 counted alike moved
      have none : more = [] := by
        apply List.eq_nil_of_length_eq_zero
        simp only [List.length_append] at bound
        omega
      rw [none, List.append_nil] at beyond
      have whole : first ++ (delimiter ++ second) = late ++ (delimiter ++ []) := by
        rw [← beyond]
        simp
      exact (congrArg List.length (cuts.1 late [] whole)).le
    · have whole : first ++ (delimiter ++ second) = late ++ (delimiter ++ more) := by
        rw [inside]
        simp
      exact (congrArg List.length (cuts.1 late more whole)).le

-- Sole cuts leave one reading.
theorem joined_injective {delimiters contents others : List (List A)}
    (cuts : SoleCuts delimiters contents) (counted : contents.length = delimiters.length + 1)
    (alike : others.length = contents.length)
    (same : joined delimiters contents = joined delimiters others) : contents = others := by
  induction delimiters generalizing contents others with
  | nil =>
    obtain ⟨content, rest, rfl⟩ := List.exists_cons_of_length_eq_add_one counted
    obtain ⟨other, more, rfl⟩ := List.exists_cons_of_length_eq_add_one (alike.trans counted)
    obtain rfl := List.eq_nil_of_length_eq_zero (Nat.succ.inj counted)
    obtain rfl := List.eq_nil_of_length_eq_zero (Nat.succ.inj alike)
    exact congrArg (fun content => [content]) same
  | cons delimiter delimiters ih =>
    obtain ⟨first, rest, rfl⟩ := List.exists_cons_of_length_eq_add_one counted
    obtain ⟨early, more, rfl⟩ := List.exists_cons_of_length_eq_add_one (alike.trans counted)
    simp only [List.length_cons, Nat.add_right_cancel_iff] at counted alike
    obtain ⟨second, rest, rfl⟩ := List.exists_cons_of_length_eq_add_one counted
    obtain ⟨other, more, rfl⟩ := List.exists_cons_of_length_eq_add_one (alike.trans counted)
    simp only [List.length_cons, Nat.add_right_cancel_iff] at counted alike
    simp only [joined] at same
    have late := no_later_cut cuts counted alike same
    have placed : early = first := by
      rcases List.append_eq_append_iff.mp same with ⟨more, leads, -⟩ | ⟨between, leads, later⟩
      · have none : more = [] := by
          apply List.eq_nil_of_length_eq_zero
          have lengths := congrArg List.length leads
          rw [List.length_append] at lengths
          omega
        rw [leads, none, List.append_nil]
      · -- a delimiter that begins within the first content ends within the real one
        have begins : delimiter <+: between ++ delimiter := by
          have here : delimiter <+: between ++ (delimiter ++ joined delimiters (second :: rest)) :=
            ⟨_, later⟩
          have whole : between ++ delimiter <+:
              between ++ (delimiter ++ joined delimiters (second :: rest)) :=
            ⟨joined delimiters (second :: rest), by simp⟩
          exact List.prefix_of_prefix_length_le here whole (by simp)
        obtain ⟨back, ends⟩ := begins
        refine cuts.1 early (back ++ second) ?_
        rw [leads, ← List.append_assoc delimiter, ends]
        simp
    subst placed
    have tails := List.append_cancel_left (List.append_cancel_left same)
    rw [ih cuts.2 (by simpa using counted) (by simpa using alike) tails]

theorem soleCuts_of_injective {delimiters contents : List (List A)}
    (sole : ∀ others : List (List A), others.length = contents.length →
      joined delimiters contents = joined delimiters others → contents = others)
    (counted : contents.length = delimiters.length + 1) : SoleCuts delimiters contents := by
  induction delimiters generalizing contents with
  | nil =>
    obtain ⟨content, rest, rfl⟩ := List.exists_cons_of_length_eq_add_one counted
    obtain rfl := List.eq_nil_of_length_eq_zero (Nat.succ.inj counted)
    trivial
  | cons delimiter delimiters ih =>
    obtain ⟨first, rest, rfl⟩ := List.exists_cons_of_length_eq_add_one counted
    simp only [List.length_cons, Nat.add_right_cancel_iff] at counted
    obtain ⟨second, rest, rfl⟩ := List.exists_cons_of_length_eq_add_one counted
    constructor
    · intro front back cut
      have same : joined (delimiter :: delimiters) (first :: second :: rest) =
          joined (delimiter :: delimiters) (front :: back :: rest) := by
        simp only [joined, joined_head delimiters second, joined_head delimiters back,
          ← List.append_assoc]
        simp only [List.append_assoc]
        have extended := congrArg (· ++ joined delimiters ([] :: rest)) cut
        simpa using extended
      exact (List.cons.inj (sole (front :: back :: rest) rfl same)).1.symm
    · refine ih ?_ counted
      intro others alike same
      have later := sole (first :: others) (by simpa using alike)
        (by simp only [joined, same])
      exact (List.cons.inj later).2

-- The joined text has one reading if and only if no delimiter can be moved alone.
theorem joined_determines_iff {delimiters contents : List (List A)}
    (counted : contents.length = delimiters.length + 1) :
    (∀ others : List (List A), others.length = contents.length →
        joined delimiters contents = joined delimiters others → contents = others) ↔
      SoleCuts delimiters contents :=
  ⟨fun sole => soleCuts_of_injective sole counted,
    fun cuts _ alike same => joined_injective cuts counted alike same⟩

theorem first_cut {mark : A} {first second rest others : List A} (plain : mark ∉ first)
    (clean : mark ∉ second) (same : first ++ mark :: rest = second ++ mark :: others) :
    first = second ∧ rest = others := by
  rcases List.append_eq_append_iff.mp same with ⟨more, leads, tail⟩ | ⟨more, leads, tail⟩
  · cases more with
    | nil => exact ⟨by rw [leads, List.append_nil], (List.cons.inj tail).2⟩
    | cons c more =>
      obtain rfl := (List.cons.inj tail).1
      exact absurd (by rw [leads]; simp) clean
  · cases more with
    | nil => exact ⟨by rw [leads, List.append_nil], (List.cons.inj tail).2.symm⟩
    | cons c more =>
      obtain rfl := (List.cons.inj tail).1
      exact absurd (by rw [leads]; simp) plain

theorem last_cut {mark : A} {first second rest others : List A} (plain : mark ∉ rest)
    (clean : mark ∉ others) (same : first ++ mark :: rest = second ++ mark :: others) :
    first = second ∧ rest = others := by
  have reversed : rest.reverse ++ mark :: first.reverse = others.reverse ++ mark :: second.reverse := by
    have mirrored := congrArg List.reverse same
    simpa using mirrored
  obtain ⟨tails, heads⟩ := first_cut (by simpa using plain) (by simpa using clean) reversed
  exact ⟨List.reverse_injective heads, List.reverse_injective tails⟩

section Marked

variable {mark : A} {name first second : List A}

def marked (mark : A) (name : List A) : List A :=
  mark :: (name ++ [mark])

-- Where a marked name overlaps another copy of it, only their marks do.
theorem marked_overlap (plain : mark ∉ name) {between later back : List A} (nonempty : between ≠ [])
    (same : marked mark name ++ back = between ++ (marked mark name ++ later)) :
    ∃ gap, between = mark :: (name ++ gap) := by
  obtain ⟨c, inner, rfl⟩ := List.exists_cons_of_ne_nil nonempty
  simp only [marked, List.cons_append, List.cons.injEq] at same
  obtain ⟨rfl, same⟩ := same
  rw [List.append_assoc] at same
  rcases List.append_eq_append_iff.mp same with ⟨gap, split, -⟩ | ⟨more, split, other⟩
  · exact ⟨gap, by rw [split]⟩
  · cases more with
    | nil => exact ⟨[], by rw [List.append_nil] at split; rw [split, List.append_nil]⟩
    | cons d more =>
      have inside : mark = d := (List.cons.inj other).1
      exact absurd (split ▸ by simp [inside]) plain

-- A marked name cuts in one place only if and only if no further copy of it ends with the mark
-- behind the first neighbour, or begins with the one in front of the second.
theorem soleCut_marked_iff (plain : mark ∉ name) :
    SoleCut (marked mark name) first second ↔
      ¬ marked mark name <:+: first ++ [mark] ∧ ¬ marked mark name <:+: mark :: second := by
  constructor
  · intro sole
    constructor
    · rintro ⟨front, back, found⟩
      have cut : first ++ (marked mark name ++ second) =
          front ++ (marked mark name ++ (back ++ (name ++ mark :: second))) := by
        have extended := congrArg (· ++ (name ++ mark :: second)) found.symm
        simpa [marked] using extended
      have lengths := congrArg List.length found
      rw [sole front _ cut] at lengths
      simp [marked] at lengths
    · rintro ⟨front, back, found⟩
      have cut : first ++ (marked mark name ++ second) =
          (first ++ (mark :: name ++ front)) ++ (marked mark name ++ back) := by
        have extended := congrArg (fun text => first ++ (mark :: name ++ text)) found.symm
        simpa [marked] using extended
      have lengths := congrArg List.length (sole _ back cut)
      simp at lengths
  · rintro ⟨inFirst, inSecond⟩ front back cut
    rcases List.append_eq_append_iff.mp cut with ⟨between, leads, later⟩ | ⟨between, leads, later⟩
    · by_contra moved
      have nonempty : between ≠ [] := by
        rintro rfl
        exact moved (by rw [leads, List.append_nil])
      obtain ⟨gap, rfl⟩ := marked_overlap plain nonempty later
      have rest : mark :: second = gap ++ (marked mark name ++ back) := by
        simpa [marked] using later
      exact inSecond ⟨gap, back, by rw [rest, List.append_assoc]⟩
    · by_contra moved
      have nonempty : between ≠ [] := by
        rintro rfl
        exact moved (by rw [leads, List.append_nil])
      obtain ⟨gap, rfl⟩ := marked_overlap plain nonempty later
      have rest : mark :: back = gap ++ (marked mark name ++ second) := by
        simpa [marked] using later
      apply inFirst
      cases gap with
      | nil => exact ⟨front, [], by simp [leads, marked]⟩
      | cons d gap =>
        obtain rfl := (List.cons.inj rest).1
        exact ⟨front, gap ++ [mark], by simp [leads, marked]⟩

end Marked

-- A word without the mark lies on one side of a mark.
theorem infix_cut {word front back : List A} {mark : A} (plain : mark ∉ word) :
    word <:+: front ++ mark :: back ↔ word <:+: front ∨ word <:+: back := by
  constructor
  · rintro ⟨before, after, same⟩
    rw [List.append_assoc] at same
    rcases List.append_eq_append_iff.mp same with ⟨gap, rfl, rest⟩ | ⟨gap, rfl, rest⟩
    · rcases List.append_eq_append_iff.mp rest with ⟨more, rfl, -⟩ | ⟨more, rfl, inside⟩
      · exact .inl ⟨before, more, by rw [List.append_assoc]⟩
      · cases more with
        | nil => exact .inl ⟨before, [], by simp⟩
        | cons c more =>
          obtain rfl := (List.cons.inj inside).1
          simp at plain
    · cases gap with
      | nil =>
        cases word with
        | nil => exact .inl (List.nil_infix)
        | cons c word =>
          obtain rfl := (List.cons.inj rest).1
          simp at plain
      | cons c gap =>
        obtain ⟨-, rfl⟩ := List.cons.inj rest
        exact .inr ⟨gap, after, List.append_assoc gap word after⟩
  · rintro (inside | inside)
    · exact inside.trans (List.prefix_append _ _).isInfix
    · exact inside.trans ⟨front ++ [mark], [], by simp⟩

-- A word starts where its first letter is.
theorem infix_skip {word skip rest : List A} {letter : A} (none : letter ∉ skip) :
    letter :: word <:+: skip ++ letter :: rest ↔
      letter :: word <+: letter :: rest ∨ letter :: word <:+: rest := by
  induction skip with
  | nil => rw [List.nil_append, List.infix_cons_iff]
  | cons c skip ih =>
    have other : letter ≠ c := fun same => none (same ▸ List.mem_cons_self)
    rw [List.cons_append, List.infix_cons_iff,
      ih fun member => none (List.mem_cons_of_mem c member), List.cons_prefix_cons]
    simp [other]

end Delimited
