import Mathlib.Data.List.Infix
import VmDeploy.Website.Stamp

/-! Head tags of a document, and the tags that name a backend. -/

set_option autoImplicit false

open Python

namespace VmDeploy.Website

def isTagSpace (c : Char) : Bool :=
  c = ' ' || c = '\t' || c = '\n' || c = '\x0c' || c = '\r'

def isNameEnd (c : Char) : Bool :=
  c = '>' || c = '/' || isTagSpace c

/-- Where a reader of attributes stands: outside values, behind an equals sign, or in a value. -/
inductive TagMode where
  | between
  | equals
  | quoted (quote : Char)
  | bare
  deriving DecidableEq, Repr

/-- The rest of a text after the attributes of a tag; in quotation marks, a value may have any
character. -/
def afterTag? : TagMode → Text → Option Text
  | _, [] => none
  | .between, c :: rest =>
      if c = '>' then some rest
      else afterTag? (if c = '=' then .equals else .between) rest
  | .equals, c :: rest =>
      if c = '>' then some rest
      else if c = '"' ∨ c = '\'' then afterTag? (.quoted c) rest
      else afterTag? (if isTagSpace c then .equals else .bare) rest
  | .quoted quote, c :: rest => afterTag? (if c = quote then .between else .quoted quote) rest
  | .bare, c :: rest =>
      if c = '>' then some rest
      else afterTag? (if isTagSpace c then .between else .bare) rest

def afterHeadTag? (text : Text) : Option Text := do
  let attributes ← afterFold? headName text
  if attributes.head?.any isNameEnd then afterTag? .between attributes else none

def hasHeadLine (content : Text) : Bool :=
  content.tails.any fun text => (afterHeadTag? text).any fun after =>
    !(text.take (text.length - after.length)).contains '\n'

def namesMarker : Text → Bool
  | [] => false
  | c :: text => isTagSpace c && (afterFold? ['n', 'a', 'm', 'e', '='] text).any fun value =>
      ('"' :: backendMetaName.toList ++ ['"']).isPrefixOf value ||
        ('\'' :: backendMetaName.toList ++ ['\'']).isPrefixOf value ||
        (backendMetaName.toList.isPrefixOf value &&
          (value.drop backendMetaName.length).head?.all isNameEnd)

/-- The text starts with a meta tag of that name. -/
def isStamp (text : Text) : Bool :=
  (afterFold? ['<', 'm', 'e', 't', 'a'] (text.takeWhile (· ≠ '>'))).any fun attributes =>
    attributes.tails.any namesMarker

def stampCount : Text → Nat
  | [] => 0
  | c :: text => (if isStamp (c :: text) then 1 else 0) + stampCount text

theorem afterFold?_suffix {letters text rest : Text} (found : afterFold? letters text = some rest) :
    ∃ name, text = name ++ rest ∧ name.length = letters.length := by
  induction letters generalizing text with
  | nil =>
    rw [afterFold?] at found
    cases found
    exact ⟨[], rfl, rfl⟩
  | cons letter letters ih =>
    cases text with
    | nil => cases found
    | cons c text =>
      rw [afterFold?] at found
      split at found
      · obtain ⟨name, rfl, size⟩ := ih found
        exact ⟨c :: name, rfl, by simp [size]⟩
      · cases found

def EndsTag (after? : Text → Option Text) : Prop :=
  ∀ text after, after? text = some after → ∃ inner, text = inner ++ '>' :: after

theorem endsTag_afterHead : EndsTag afterHead? := by
  intro text after read
  obtain ⟨attributes, name, found⟩ := Option.bind_eq_some_iff.mp read
  obtain ⟨letters, rfl, -⟩ := afterFold?_suffix name
  split at found
  · next same =>
    cases found
    refine ⟨letters ++ attributes.takeWhile fun c => c ≠ '>' && c ≠ '\n', ?_⟩
    rw [List.append_assoc, ← same, List.takeWhile_append_dropWhile]
  · cases found

theorem afterTag?_ends {mode : TagMode} {text after : Text}
    (found : afterTag? mode text = some after) : ∃ inner, text = inner ++ '>' :: after := by
  induction text generalizing mode with
  | nil => cases mode <;> cases found
  | cons c text ih =>
    have further : ∀ {next : TagMode}, afterTag? next text = some after →
        ∃ inner, c :: text = inner ++ '>' :: after := by
      intro next found
      obtain ⟨inner, rfl⟩ := ih found
      exact ⟨c :: inner, rfl⟩
    cases mode with
    | between =>
      rw [afterTag?] at found
      split at found
      · next close =>
        cases found
        exact ⟨[], by rw [close]; rfl⟩
      · exact further found
    | equals =>
      rw [afterTag?] at found
      split at found
      · next close =>
        cases found
        exact ⟨[], by rw [close]; rfl⟩
      · split at found
        · exact further found
        · exact further found
    | quoted quote =>
      rw [afterTag?] at found
      exact further found
    | bare =>
      rw [afterTag?] at found
      split at found
      · next close =>
        cases found
        exact ⟨[], by rw [close]; rfl⟩
      · exact further found

theorem endsTag_afterHeadTag : EndsTag afterHeadTag? := by
  intro text after read
  obtain ⟨attributes, name, found⟩ := Option.bind_eq_some_iff.mp read
  obtain ⟨letters, rfl, -⟩ := afterFold?_suffix name
  split at found
  · obtain ⟨inner, rfl⟩ := afterTag?_ends found
    exact ⟨letters ++ inner, by rw [List.append_assoc]⟩
  · cases found

theorem splitAfter_parts {after? : Text → Option Text} (ends : EndsTag after?)
    {text front rest : Text} (split : splitAfter after? text = some (front, rest)) :
    text = front ++ rest ∧ ∃ inner, front = inner ++ ['>'] := by
  induction text generalizing front with
  | nil => cases split
  | cons c text ih =>
    rw [splitAfter] at split
    split at split
    · next after found =>
      obtain ⟨inner, whole⟩ := ends _ _ found
      cases split
      have closed : inner ++ '>' :: rest = inner ++ ['>'] ++ rest := by simp
      have taken : (c :: text).take ((c :: text).length - rest.length) = inner ++ ['>'] := by
        rw [whole, closed, List.length_append, Nat.add_sub_cancel_right]
        exact List.take_left
      rw [taken, whole]
      exact ⟨closed, inner, rfl⟩
    · obtain ⟨⟨front', rest'⟩, found, same⟩ := Option.map_eq_some_iff.mp split
      cases same
      obtain ⟨parts, inner, rfl⟩ := ih found
      exact ⟨by rw [parts]; rfl, c :: inner, rfl⟩

theorem EndsTag.nonempty {after? : Text → Option Text} (ends : EndsTag after?) {text after : Text}
    (found : after? text = some after) : text ≠ [] := by
  obtain ⟨inner, rfl⟩ := ends text after found
  simp

theorem splitAfter_isSome {after? : Text → Option Text} {text : Text} {tail after : Text}
    (suffix : tail ∈ text.tails) (found : after? tail = some after) (some_tail : tail ≠ []) :
    (splitAfter after? text).isSome = true := by
  induction text with
  | nil => exact absurd (by simpa using suffix) some_tail
  | cons c text ih =>
    rw [splitAfter]
    cases here : after? (c :: text) with
    | some after => rfl
    | none =>
      rcases List.mem_cons.mp (List.tails_cons c text ▸ suffix) with rfl | later
      · rw [found] at here
        cases here
      · simpa using ih later

-- A document with a head tag on one line has a first head tag.
theorem splitAfter_served {content : Text} (served : hasHeadLine content = true) :
    (splitAfter afterHeadTag? content).isSome = true := by
  obtain ⟨tail, suffix, tagged⟩ := List.any_eq_true.mp served
  obtain ⟨after, found, -⟩ := Option.any_eq_true _ _ |>.mp tagged
  exact splitAfter_isSome suffix found (endsTag_afterHeadTag.nonempty found)

section Counting

variable {backend : Backend} {text rest : Text}

theorem backendMetaName_chars : backendMetaName.toList =
    ['x', '-', 'b', 'a', 'c', 'k', 'e', 'n', 'd', '-', 'h', 'o', 's', 't'] := by
  simp [backendMetaName]

theorem isMarked_iff : isMarked text = true ↔ backendMetaName.toList <:+: text :=
  containsText_iff

theorem namesMarker_inside (names : namesMarker text = true) : backendMetaName.toList <:+: text := by
  cases text with
  | nil => cases names
  | cons c text =>
    simp only [namesMarker, Bool.and_eq_true, Bool.or_eq_true, Option.any_eq_true,
      List.isPrefixOf_iff_prefix] at names
    obtain ⟨-, value, found, ways⟩ := names
    obtain ⟨name, rfl, -⟩ := afterFold?_suffix found
    have inside : backendMetaName.toList <:+: value := by
      rcases ways with (double | single) | ⟨bare, -⟩
      · exact List.IsInfix.trans ⟨['"'], ['"'], rfl⟩ double.isInfix
      · exact List.IsInfix.trans ⟨['\''], ['\''], rfl⟩ single.isInfix
      · exact bare.isInfix
    exact inside.trans (List.suffix_append (c :: name) value).isInfix

theorem isStamp_inside (stamped : isStamp text = true) :
    backendMetaName.toList <:+: text.takeWhile (· ≠ '>') := by
  obtain ⟨attributes, found, names⟩ := Option.any_eq_true _ _ |>.mp stamped
  obtain ⟨name, whole, -⟩ := afterFold?_suffix found
  obtain ⟨tail, member, names⟩ := List.any_eq_true.mp names
  have inside := (namesMarker_inside names).trans ((List.mem_tails _ _).mp member).isInfix
  exact whole ▸ inside.trans (List.suffix_append name attributes).isInfix

theorem isStamp_other {c : Char} (other : c ≠ '<') : isStamp (c :: text) = false := by
  have upper : '<'.toUpper = '<' := by decide
  by_cases close : c = '>'
  · simp [isStamp, close, afterFold?]
  · simp [isStamp, close, afterFold?, other, upper]

theorem stampCount_skip {skip : Text} (none : '<' ∉ skip) (rest : Text) :
    stampCount (skip ++ rest) = stampCount rest := by
  induction skip with
  | nil => rfl
  | cons c skip ih =>
    have here : c ≠ '<' := fun same => none (same ▸ List.mem_cons_self)
    rw [List.cons_append, stampCount, isStamp_other here,
      ih fun member => none (List.mem_cons_of_mem c member)]
    simp

theorem takeWhile_cut (front rest : Text) :
    (front ++ '>' :: rest).takeWhile (· ≠ '>') = front.takeWhile (· ≠ '>') := by
  induction front with
  | nil => simp
  | cons c front ih =>
    rw [List.cons_append, List.takeWhile_cons, List.takeWhile_cons, ih]

-- What ends before the next tag does has no stamp without the marker.
theorem stampCount_cut {front : Text} (unmarked : ¬ backendMetaName.toList <:+: front)
    (rest : Text) : stampCount (front ++ '>' :: rest) = stampCount rest := by
  induction front with
  | nil => rw [List.nil_append, stampCount, isStamp_other (by decide)]; simp
  | cons c front ih =>
    have none : isStamp (c :: (front ++ '>' :: rest)) = false := by
      by_contra stamped
      have inside := isStamp_inside (by simpa using stamped)
      have cut := takeWhile_cut (c :: front) rest
      rw [List.cons_append] at cut
      rw [cut] at inside
      exact unmarked (inside.trans (List.takeWhile_prefix _).isInfix)
    rw [List.cons_append, stampCount, none,
      ih fun inside => unmarked (inside.trans (List.suffix_cons c front).isInfix)]
    simp

theorem stampCount_unmarked (unmarked : isMarked text = false) : stampCount text = 0 := by
  have absent : ¬ backendMetaName.toList <:+: text := by
    rw [← isMarked_iff, unmarked]
    exact Bool.false_ne_true
  clear unmarked
  induction text with
  | nil => rfl
  | cons c text ih =>
    have none : isStamp (c :: text) = false := by
      by_contra stamped
      exact absent ((isStamp_inside (by simpa using stamped)).trans (List.takeWhile_prefix _).isInfix)
    rw [stampCount, none, ih fun inside => absent (inside.trans (List.suffix_cons c text).isInfix)]
    simp

def tagBody (backend : Backend) : Text :=
  ['m', 'e', 't', 'a'] ++ ([' ', 'n', 'a', 'm', 'e', '='] ++
    ('"' :: backendMetaName.toList ++ ['"']) ++
    [' ', 'c', 'o', 'n', 't', 'e', 'n', 't', '=', '"'] ++ backend.val ++ ['"'])

theorem metaTag_opening : s!"<meta name=\"{backendMetaName}\" content=\"".toList =
    "<meta name=\"".toList ++ (backendMetaName.toList ++ "\" content=\"".toList) := by
  have itself : ∀ text : String, toString text = text := fun _ => rfl
  simp only [itself, String.toList_append, List.append_assoc]

theorem metaTag_eq (backend : Backend) : metaTag backend = '<' :: (tagBody backend ++ ['>']) := by
  have first : "<meta name=\"".toList =
      ['<', 'm', 'e', 't', 'a', ' ', 'n', 'a', 'm', 'e', '=', '"'] := by simp
  have second : "\" content=\"".toList =
      ['"', ' ', 'c', 'o', 'n', 't', 'e', 'n', 't', '=', '"'] := by simp
  unfold metaTag
  rw [metaTag_opening, first, second, tagBody]
  generalize backendMetaName.toList = marker
  simp

theorem tagBody_plain {c : Char} (other : c.isAlphanum = false)
    (unlisted : c ∉
      ['m', 'e', 't', 'a', ' ', 'n', '=', '"', 'x', '-', 'b', 'c', 'k', 'd', 'h', 'o', 's'])
    (backend : Backend) : c ∉ tagBody backend := by
  intro member
  have named : c ∈ backend.val → False := by
    intro inside
    rcases backend.property.plain c inside with letter | rfl
    · rw [other] at letter
      cases letter
    · exact unlisted (by decide)
  simp only [tagBody, backendMetaName_chars, List.mem_append, List.mem_cons, List.not_mem_nil,
    or_false] at member unlisted
  tauto

theorem isStamp_metaTag (backend : Backend) (rest : Text) :
    isStamp (metaTag backend ++ rest) = true := by
  have closed : metaTag backend ++ rest = ('<' :: tagBody backend) ++ '>' :: rest := by
    rw [metaTag_eq]
    simp
  have whole : ('<' :: tagBody backend).takeWhile (· ≠ '>') = '<' :: tagBody backend := by
    refine List.takeWhile_eq_self_iff.mpr ?_
    intro c member
    have differs : c ≠ '>' := by
      rintro rfl
      rcases List.mem_cons.mp member with same | inside
      · cases same
      · exact tagBody_plain (by decide) (by decide) backend inside
    simpa using differs
  let value := ('"' :: backendMetaName.toList ++ ['"']) ++
    ([' ', 'c', 'o', 'n', 't', 'e', 'n', 't', '=', '"'] ++ backend.val ++ ['"'])
  have attributes : afterFold? ['<', 'm', 'e', 't', 'a'] ('<' :: tagBody backend) =
      some (' ' :: ['n', 'a', 'm', 'e', '='] ++ value) := by
    simp [afterFold?, tagBody, value]
  have named : namesMarker (' ' :: ['n', 'a', 'm', 'e', '='] ++ value) = true := by
    have found : afterFold? ['n', 'a', 'm', 'e', '='] (['n', 'a', 'm', 'e', '='] ++ value) =
        some value := by
      simp [afterFold?]
    have starts : ('"' :: backendMetaName.toList ++ ['"']).isPrefixOf value = true :=
      List.isPrefixOf_iff_prefix.mpr (List.prefix_append _ _)
    rw [List.cons_append, namesMarker, found, Option.any_some, starts]
    rfl
  rw [isStamp, closed, takeWhile_cut, whole, attributes, Option.any_some]
  exact List.any_eq_true.mpr ⟨_, (List.mem_tails _ _).mpr (List.suffix_refl _), named⟩

theorem stampCount_metaTag (backend : Backend) (rest : Text) :
    stampCount (metaTag backend ++ rest) = 1 + stampCount rest := by
  have stamped := isStamp_metaTag backend rest
  rw [metaTag_eq, List.cons_append] at stamped ⊢
  have none : '<' ∉ tagBody backend ++ ['>'] := by
    intro member
    rcases List.mem_append.mp member with inside | last
    · exact tagBody_plain (by decide) (by decide) backend inside
    · simp at last
  rw [stampCount, stamped, stampCount_skip none]
  simp

end Counting

end VmDeploy.Website
