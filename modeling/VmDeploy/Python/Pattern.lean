import VmDeploy.Python.Text

/-! The part of the `re` module that has no captures: classes, sequences, options and bounded
repetitions, by the texts that they match. -/

set_option autoImplicit false

namespace Python

inductive Pattern where
  | one (inClass : Char → Bool)
  | repeated (inClass : Char → Bool) (least most : Nat)
  | seq (first second : Pattern)
  | optional (body : Pattern)

namespace Pattern

def Matches : Pattern → Text → Prop
  | .one inClass, text => ∃ c, inClass c = true ∧ text = [c]
  | .repeated inClass least most, text =>
      least ≤ text.length ∧ text.length ≤ most ∧ ∀ c ∈ text, inClass c = true
  | .seq first second, text => ∃ front back, text = front ++ back ∧ first.Matches front ∧
      second.Matches back
  | .optional body, text => text = [] ∨ body.Matches text

/-- `^pattern$` -/
def MatchesToEnd (pattern : Pattern) (text : Text) : Prop :=
  pattern.Matches text ∨ ∃ front, text = front ++ ['\n'] ∧ pattern.Matches front

theorem matches_one_seq {inClass : Char → Bool} {rest : Pattern} {text : Text} :
    (Pattern.seq (.one inClass) rest).Matches text ↔
      ∃ c back, text = c :: back ∧ inClass c = true ∧ rest.Matches back := by
  constructor
  · rintro ⟨_, back, rfl, ⟨c, member, rfl⟩, follows⟩
    exact ⟨c, back, rfl, member, follows⟩
  · rintro ⟨c, back, rfl, member, follows⟩
    exact ⟨[c], back, rfl, ⟨c, member, rfl⟩, follows⟩

theorem matches_seq_one {inClass : Char → Bool} {first : Pattern} {text : Text} :
    (Pattern.seq first (.one inClass)).Matches text ↔
      ∃ front c, text = front ++ [c] ∧ first.Matches front ∧ inClass c = true := by
  constructor
  · rintro ⟨front, _, rfl, leads, c, member, rfl⟩
    exact ⟨front, c, rfl, leads, member⟩
  · rintro ⟨front, c, rfl, leads, member⟩
    exact ⟨front, [c], rfl, leads, c, member, rfl⟩

end Pattern

-- A boolean test that agrees with a pattern agrees with it between its anchors.
theorem matchesToEnd_iff {test : Text → Bool} {pattern : Pattern}
    (agrees : ∀ text, test text = true ↔ pattern.Matches text) (text : Text) :
    matchesToEnd test text = true ↔ pattern.MatchesToEnd text := by
  rw [matchesToEnd, Bool.or_eq_true, Bool.and_eq_true, decide_eq_true_iff, agrees, agrees]
  constructor
  · rintro (whole | ⟨last, front⟩)
    · exact .inl whole
    · exact .inr ⟨text.dropLast, (List.dropLast_append_getLast? _ last).symm, front⟩
  · rintro (whole | ⟨front, rfl, leads⟩)
    · exact .inl whole
    · exact .inr ⟨by simp, by simpa using leads⟩

end Python
