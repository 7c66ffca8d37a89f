import VmDeploy.Python.Pattern
import VmDeploy.Seed.Render

/-! Which hostnames, account names and public keys `seed.py` lets through. -/

set_option autoImplicit false

namespace VmDeploy.Seed

open Python

def isLabelChar (c : Char) : Bool :=
  c.isAlphanum || c = '-'

def isNameStart (c : Char) : Bool :=
  c.isLower || c = '_'

def isNameChar (c : Char) : Bool :=
  c.isLower || c.isDigit || c = '_' || c = '-'

def hostnamePattern : Pattern :=
  .seq (.one Char.isAlphanum)
    (.optional (.seq (.repeated isLabelChar 0 61) (.one Char.isAlphanum)))

def usernamePattern : Pattern :=
  .seq (.one isNameStart) (.repeated isNameChar 0 31)

/-- One label of RFC 1123. -/
structure Label (text : Text) : Prop where
  nonempty : text ≠ []
  short : text.length ≤ 63
  plain : ∀ c ∈ text, c.isAlphanum = true ∨ c = '-'
  starts : text.head? ≠ some '-'
  ends : text.getLast? ≠ some '-'

structure AccountName (text : Text) : Prop where
  short : text.length ≤ 32
  plain : ∀ c ∈ text, c.isLower = true ∨ c.isDigit = true ∨ c = '_' ∨ c = '-'
  starts : ∃ c rest, text = c :: rest ∧ (c.isLower = true ∨ c = '_')

theorem isHostLabel_iff (text : Text) : isHostLabel text = true ↔ Label text := by
  have hyphen : Char.isAlphanum '-' = false := by decide
  simp only [isHostLabel, Bool.and_eq_true, List.all_eq_true, Bool.or_eq_true, decide_eq_true_eq,
    Option.any_eq_true]
  constructor
  · rintro ⟨⟨⟨plain, short⟩, first, starts, letter⟩, last, ends, digit⟩
    refine ⟨?_, short, plain, ?_, ?_⟩
    · rintro rfl
      cases starts
    · intro other
      cases starts.symm.trans other
      exact absurd letter (by simp [hyphen])
    · intro other
      cases ends.symm.trans other
      exact absurd digit (by simp [hyphen])
  · rintro ⟨nonempty, short, plain, starts, ends⟩
    refine ⟨⟨⟨plain, short⟩, text.head nonempty, List.head?_eq_some_head nonempty, ?_⟩,
      text.getLast nonempty, List.getLast?_eq_some_getLast nonempty, ?_⟩
    · rcases plain _ (List.head_mem nonempty) with letter | other
      · exact letter
      · exact absurd (List.head?_eq_some_head nonempty ▸ congrArg some other) starts
    · rcases plain _ (List.getLast_mem nonempty) with letter | other
      · exact letter
      · exact absurd (List.getLast?_eq_some_getLast nonempty ▸ congrArg some other) ends

theorem alphanum_ne_hyphen {c : Char} (letter : c.isAlphanum = true) : c ≠ '-' := by
  rintro rfl
  exact absurd letter (by decide)

theorem isLabelChar_iff (c : Char) : isLabelChar c = true ↔ c.isAlphanum = true ∨ c = '-' := by
  simp [isLabelChar]

theorem matches_hostname (text : Text) : hostnamePattern.Matches text ↔ Label text := by
  rw [hostnamePattern, Pattern.matches_one_seq]
  constructor
  · rintro ⟨c, back, rfl, letter, rfl | inner⟩
    · refine ⟨by simp, by simp, by simp [letter], ?_, ?_⟩
      · simpa using alphanum_ne_hyphen letter
      · simpa using alphanum_ne_hyphen letter
    · obtain ⟨mid, d, rfl, ⟨-, short, plain⟩, last⟩ := Pattern.matches_seq_one.mp inner
      have size : (c :: (mid ++ [d])).length ≤ 63 := by
        simp only [List.length_cons, List.length_append, List.length_nil]
        omega
      refine ⟨by simp, size, ?_, ?_, ?_⟩
      · intro other member
        rcases List.mem_cons.mp member with rfl | member
        · exact .inl letter
        · rcases List.mem_append.mp member with member | member
          · exact (isLabelChar_iff other).mp (plain other member)
          · exact .inl (List.mem_singleton.mp member ▸ last)
      · simpa using alphanum_ne_hyphen letter
      · have ends : (c :: (mid ++ [d])).getLast? = some d := List.getLast?_concat (l := c :: mid)
        simpa [ends] using alphanum_ne_hyphen last
  · rintro ⟨nonempty, short, plain, starts, ends⟩
    obtain ⟨c, back, rfl⟩ := List.exists_cons_of_ne_nil nonempty
    have letter : c.isAlphanum = true := by
      rcases plain c List.mem_cons_self with letter | rfl
      · exact letter
      · exact absurd rfl starts
    refine ⟨c, back, rfl, letter, ?_⟩
    rcases List.eq_nil_or_concat back with rfl | ⟨mid, d, rfl⟩
    · exact .inl rfl
    · rw [List.concat_eq_append] at *
      have last : d.isAlphanum = true := by
        rcases plain d (by simp) with letter | rfl
        · exact letter
        · exact absurd (List.getLast?_concat (l := c :: mid)) ends
      refine .inr (Pattern.matches_seq_one.mpr ⟨mid, d, rfl, ⟨by simp, ?_, ?_⟩, last⟩)
      · simp at short
        omega
      · exact fun other member => (isLabelChar_iff other).mpr (plain other (by simp [member]))

theorem isAccountName_iff (text : Text) : isAccountName text = true ↔ AccountName text := by
  simp only [isAccountName, Bool.and_eq_true, List.all_eq_true, Bool.or_eq_true,
    decide_eq_true_eq, Option.any_eq_true, or_assoc]
  constructor
  · rintro ⟨⟨plain, short⟩, c, starts, first⟩
    obtain ⟨rest, rfl⟩ := List.head?_eq_some_iff.mp starts
    exact ⟨short, plain, c, rest, rfl, first⟩
  · rintro ⟨short, plain, c, rest, rfl, first⟩
    exact ⟨⟨plain, short⟩, c, rfl, first⟩

theorem matches_username (text : Text) : usernamePattern.Matches text ↔ AccountName text := by
  rw [usernamePattern, Pattern.matches_one_seq]
  constructor
  · rintro ⟨c, back, rfl, first, -, short, plain⟩
    have start : c.isLower = true ∨ c = '_' := by simpa [isNameStart] using first
    have size : (c :: back).length ≤ 32 := by
      simp only [List.length_cons]
      omega
    refine ⟨size, ?_, c, back, rfl, start⟩
    intro other member
    rcases List.mem_cons.mp member with rfl | member
    · tauto
    · simpa [isNameChar, or_assoc] using plain other member
  · rintro ⟨short, plain, c, back, rfl, start⟩
    have size : back.length ≤ 31 := by
      simp only [List.length_cons] at short
      omega
    refine ⟨c, back, rfl, by simpa [isNameStart] using start, by simp, size, ?_⟩
    intro other member
    simpa [isNameChar, or_assoc] using plain other (List.mem_cons_of_mem _ member)

-- `re.match` with either pattern is the test the validators make.
theorem validators_match (text : Text) :
    (validateHostname text = .ok () ↔ hostnamePattern.MatchesToEnd text) ∧
      (validateUsername text = .ok () ↔ usernamePattern.MatchesToEnd text) := by
  have label : ∀ other, isHostLabel other = true ↔ hostnamePattern.Matches other :=
    fun other => (isHostLabel_iff other).trans (matches_hostname other).symm
  have name : ∀ other, isAccountName other = true ↔ usernamePattern.Matches other :=
    fun other => (isAccountName_iff other).trans (matches_username other).symm
  rw [← matchesToEnd_iff label, ← matchesToEnd_iff name, validateHostname, validateUsername]
  constructor
  · split <;> simp_all
  · split <;> simp_all

def Base64Body (text : Text) : Prop :=
  ∃ digits padding, text = digits ++ padding ∧ digits ≠ [] ∧
    (∀ c ∈ digits, c.isAlphanum = true ∨ c = '+' ∨ c = '/') ∧
    (∀ c ∈ padding, c = '=') ∧ padding.length ≤ 2

/-- What stands behind the type of a key: white space, a body and maybe a comment. -/
def KeyRest (text : Text) : Prop :=
  ∃ gap body comment, text = gap ++ body ++ comment ∧ gap ≠ [] ∧
    (∀ c ∈ gap, isSpace c = true) ∧ Base64Body body ∧
    (comment = [] ∨ ∃ c rest, comment = c :: rest ∧ isSpace c = true)

def OneLine (text : Text) : Prop :=
  '\n' ∉ text ∧ '\r' ∉ text

def KeyLine (text : Text) : Prop :=
  OneLine text ∧ ∃ type ∈ publicKeyTypes, ∃ rest, text = type.toList ++ rest ∧ KeyRest rest

theorem startsWithType_iff (text : Text) :
    (publicKeyTypes.any fun start => (afterPrefix? start.toList text).isSome) = true ↔
      ∃ type ∈ publicKeyTypes, ∃ rest, text = type.toList ++ rest := by
  simp only [List.any_eq_true, Option.isSome_iff_exists, afterPrefix?_eq_some]

theorem validatePublicKey_accepts (text : Text) :
    (∃ key, validatePublicKey text = .ok key) ↔
      OneLine (strip text) ∧ ∃ type ∈ publicKeyTypes, ∃ rest, strip text = type.toList ++ rest := by
  rw [← startsWithType_iff]
  simp only [validatePublicKey]
  constructor
  · rintro ⟨key, accepted⟩
    split_ifs at accepted with empty lines known
    exact ⟨not_or.mp lines, known⟩
  · rintro ⟨whole, known⟩
    have nonempty : strip text ≠ [] := by
      intro empty
      rw [empty] at known
      exact absurd known (by decide)
    rw [if_neg nonempty, if_neg (not_or.mpr whole), if_pos known]
    exact ⟨_, rfl⟩

-- The types are told apart by their first characters.
theorem type_unique {first second : String} (known : first ∈ publicKeyTypes)
    (listed : second ∈ publicKeyTypes) {rest others : Text}
    (same : first.toList ++ rest = second.toList ++ others) : first = second ∧ rest = others := by
  have apart : ∀ one ∈ publicKeyTypes, ∀ other ∈ publicKeyTypes,
      one.toList <+: other.toList → one = other := by decide
  have alike : first = second := by
    rcases List.prefix_or_prefix_of_prefix (List.prefix_append first.toList rest)
        (same ▸ List.prefix_append second.toList others) with leads | leads
    · exact apart first known second listed leads
    · exact (apart second listed first known leads).symm
  subst alike
  exact ⟨rfl, List.append_cancel_left same⟩

-- A test that lets a last line feed pass is exact but for such texts.
theorem exact_iff {pattern : Pattern} {Name : Text → Prop}
    (agrees : ∀ text, pattern.Matches text ↔ Name text) (visible : ∀ text, Name text → '\n' ∉ text)
    (text : Text) :
    (pattern.MatchesToEnd text ↔ Name text) ↔ ¬ ∃ name, text = name ++ ['\n'] ∧ Name name := by
  simp only [Pattern.MatchesToEnd, agrees]
  constructor
  · rintro same ⟨name, rfl, held⟩
    exact visible _ (same.mp (.inr ⟨name, rfl, held⟩)) (by simp)
  · intro none
    constructor
    · rintro (held | ends)
      · exact held
      · exact absurd ends none
    · exact .inl

/-- The validators accept what they describe, but for a line feed at the end of a name and
whatever follows the type of a key. -/
theorem validators_exact_iff (text : Text) :
    ((validateHostname text = .ok () ↔ Label text) ↔
        ¬ ∃ name, text = name ++ ['\n'] ∧ Label name) ∧
      ((validateUsername text = .ok () ↔ AccountName text) ↔
        ¬ ∃ name, text = name ++ ['\n'] ∧ AccountName name) ∧
      (((∃ key, validatePublicKey text = .ok key) ↔ KeyLine (strip text)) ↔
        ∀ type ∈ publicKeyTypes, ∀ rest, OneLine (strip text) → strip text = type.toList ++ rest →
          KeyRest rest) := by
  obtain ⟨hostname, username⟩ := validators_match text
  have label : ∀ name, Label name → '\n' ∉ name := by
    intro name held member
    rcases held.plain _ member with letter | other
    · exact absurd letter (by decide)
    · cases other
  have account : ∀ name, AccountName name → '\n' ∉ name := by
    intro name held member
    exact absurd (held.plain _ member) (by decide)
  rw [hostname, username, exact_iff matches_hostname label, exact_iff matches_username account,
    validatePublicKey_accepts]
  refine ⟨Iff.rfl, Iff.rfl, ?_⟩
  constructor
  · intro same type known rest whole begins
    obtain ⟨-, other, listed, others, found, continues⟩ := same.mp ⟨whole, type, known, rest, begins⟩
    obtain ⟨-, rfl⟩ := type_unique known listed (begins.symm.trans found)
    exact continues
  · intro continues
    constructor
    · rintro ⟨whole, type, known, rest, begins⟩
      exact ⟨whole, type, known, rest, begins, continues type known rest whole begins⟩
    · rintro ⟨whole, type, known, rest, begins, -⟩
      exact ⟨whole, type, known, rest, begins⟩

/-- A line feed behind a name, and a key type alone, are let through. -/
theorem malformed_accepted :
    validateHostname "apjump\n".toList = .ok () ∧ ¬ Label "apjump\n".toList ∧
      validateUsername "apadmin\n".toList = .ok () ∧ ¬ AccountName "apadmin\n".toList ∧
      validatePublicKey "ssh-rsa".toList = .ok "ssh-rsa".toList ∧ ¬ KeyLine "ssh-rsa".toList := by
  refine ⟨rfl, ?_, by decide, ?_, rfl, ?_⟩
  · intro held
    exact absurd (held.plain '\n' (by decide)) (by decide)
  · intro held
    exact absurd (held.plain '\n' (by decide)) (by decide)
  · rintro ⟨-, type, known, rest, same, gap, body, comment, rfl, nonempty, -⟩
    have short : ∀ listed ∈ publicKeyTypes, 7 ≤ listed.toList.length := by decide
    have lengths := congrArg List.length same
    have counted : ("ssh-rsa".toList).length = 7 := rfl
    have some := List.length_pos_of_ne_nil nonempty
    have enough := short type known
    simp only [List.length_append, counted] at lengths
    omega

end VmDeploy.Seed
