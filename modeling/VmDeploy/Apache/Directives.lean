import VmDeploy.Python.Text
import Mathlib.Data.List.DropRight

/-! A configuration file as Apache reads it: one directive a line, within nested sections. -/

set_option autoImplicit false

open Python

namespace VmDeploy.Apache

/-- Apache reads bytes. -/
def configChar (byte : UInt8) : Char :=
  Char.ofNat byte.toNat

def isConfigSpace (c : Char) : Bool :=
  c = ' ' || (9 ≤ c.toNat && c.toNat ≤ 13)

def configLines (text : Text) : List Text :=
  (text.splitOn '\n').map (stripBy isConfigSpace)

/-- A line that is not a comment, and whether Apache takes it into account. -/
structure Directive where
  active : Bool
  text : Text
  deriving DecidableEq, Repr

def isDirective (line : Text) : Bool :=
  line ≠ [] && line.head? ≠ some '#'

section Reading

variable (enters : Text → Bool)

/-- The open sections after a line, innermost first, and whether each was entered. -/
def nextSections (sections : List Bool) (line : Text) : List Bool :=
  if (afterPrefix? "</".toList line).isSome then sections.tail
  else if (afterPrefix? "<".toList line).isSome then enters line :: sections
  else sections

def directives : List Bool → List Text → List Directive
  | _, [] => []
  | sections, line :: rest =>
      (if isDirective line then [⟨sections.all id, line⟩] else []) ++
        directives (nextSections enters sections line) rest

def openSections (lines : List Text) : List Bool :=
  lines.foldl (nextSections enters) []

end Reading

/-- The port of `port` or `address:port`. An argument in quotation marks, which Apache takes
without them, is no port here. -/
def portOf (address : Text) : Option Nat :=
  let digits := address.rtakeWhile Char.isDigit
  let front := address.rdropWhile Char.isDigit
  if digits ≠ [] ∧ (front = [] ∨ front.getLast? = some ':') then some (decimalNumber digits) else none

def configWords (line : Text) : List Text :=
  (line.splitOnP isConfigSpace).filter (· ≠ [])

/-- The directive is an active `Listen`, in any letter case, on the port. -/
def Directive.binds (port : Nat) (directive : Directive) : Bool :=
  directive.active &&
    (configWords directive.text).head?.map (·.map Char.toLower) == some "listen".toList &&
    (configWords directive.text)[1]?.bind portOf == some port

theorem splitOn_lastLine (text : Text) : ∃ front : List Text,
    text.splitOn '\n' = front ++ [text.rtakeWhile (· ≠ '\n')] ∧
      ∀ line, '\n' ∉ line → (text ++ (line ++ ['\n'])).splitOn '\n' =
        front ++ [text.rtakeWhile (· ≠ '\n') ++ line, []] := by
  have whole := List.rdropWhile_append_rtakeWhile (p := (· ≠ '\n')) (l := text)
  have plain : '\n' ∉ text.rtakeWhile (· ≠ '\n') := by
    intro member
    simpa using List.mem_rtakeWhile_imp member
  have ended : ∀ line : Text, '\n' ∉ line → (line ++ ['\n']).splitOn '\n' = [line, []] := by
    intro line clean
    rw [List.splitOn_append_cons_of_beq _ _ (beq_self_eq_true _), List.splitOn_eq_singleton clean]
    rfl
  have last_break := List.rdropWhile_last_not (· ≠ '\n') text
  generalize text.rtakeWhile (· ≠ '\n') = last at whole plain ⊢
  generalize text.rdropWhile (· ≠ '\n') = before at whole last_break
  rcases List.eq_nil_or_concat before with none | ⟨front, c, some_front⟩
  · rw [none, List.nil_append] at whole
    subst whole
    refine ⟨[], List.splitOn_eq_singleton plain, fun line clean => ?_⟩
    rw [← List.append_assoc, ended _ (by simp [plain, clean])]
    rfl
  · have is_break : c = '\n' := by
      simpa [some_front] using last_break (by simp [some_front])
    subst is_break
    rw [some_front, List.concat_eq_append, List.append_assoc] at whole
    subst whole
    refine ⟨front.splitOn '\n', ?_, fun line clean => ?_⟩
    · rw [List.singleton_append, List.splitOn_append_cons_of_beq _ _ (beq_self_eq_true _),
        List.splitOn_eq_singleton plain]
    · rw [List.append_assoc, List.append_assoc, List.singleton_append,
        List.splitOn_append_cons_of_beq _ _ (beq_self_eq_true _), ← List.append_assoc last,
        ended _ (by simp [plain, clean])]

-- Text that ends in a character to keep is only stripped in front.
theorem stripBy_ends {p : Char → Bool} {text : Text} {c : Char} (ends : text.getLast? = some c)
    (kept : p c = false) : stripBy p text = text.dropWhile p := by
  obtain ⟨front, rfl⟩ := List.getLast?_eq_some_iff.mp ends
  have same : (front ++ [c]).dropWhile p = front.dropWhile p ++ [c] := by
    rw [List.dropWhile_append]
    split
    · next none => simp [kept, List.isEmpty_iff.mp none]
    · rfl
  rw [stripBy, same, List.reverse_append, List.reverse_singleton, List.singleton_append,
    List.dropWhile_cons_of_neg (by simp [kept]), List.reverse_cons, List.reverse_reverse]

theorem stripBy_prefix (p : Char → Bool) (text : Text) : stripBy p text <+: text.dropWhile p :=
  List.rdropWhile_prefix p _

-- A line of its own behind a text is kept, and so is what the text ends with.
theorem stripBy_append {p : Char → Bool} {line : Text} {first last : Char}
    (starts : line.head? = some first) (ends : line.getLast? = some last) (kept : p first = false)
    (held : p last = false) (text : Text) :
    stripBy p (text ++ line) =
      if stripBy p text = [] then line else text.dropWhile p ++ line := by
  have stripped : stripBy p (text ++ line) = (text ++ line).dropWhile p :=
    stripBy_ends (by rw [List.getLast?_append, ends]; rfl) held
  have whole : line.dropWhile p = line := by
    obtain ⟨rest, rfl⟩ := List.head?_eq_some_iff.mp starts
    exact List.dropWhile_cons_of_neg (by simp [kept])
  rw [stripped, List.dropWhile_append, whole]
  by_cases none : text.dropWhile p = []
  · have blank : stripBy p text = [] := by
      rw [stripBy, none]
      rfl
    simp [none, blank]
  · have some_text : stripBy p text ≠ [] := by
      intro blank
      have all : ∀ c ∈ text.dropWhile p, p c = true :=
        (List.rdropWhile_eq_nil_iff (p := p)).mp blank
      rw [← List.dropWhile_eq_nil_iff, List.dropWhile_idempotent] at all
      exact none all
    simp [none, some_text]

section Appended

variable (enters : Text → Bool)

theorem directives_append (sections : List Bool) (first last : List Text) :
    directives enters sections (first ++ last) = directives enters sections first ++
      directives enters (first.foldl (nextSections enters) sections) last := by
  induction first generalizing sections with
  | nil => rfl
  | cons line rest ih => simp [directives, ih]

/-- A text line of Apache's own: neither blank nor a comment nor the end of a section. -/
structure Plain (line : Text) : Prop where
  starts : ∃ first, line.head? = some first ∧ isConfigSpace first = false ∧ first ≠ '#' ∧ first ≠ '<'
  ends : ∃ last, line.getLast? = some last ∧ isConfigSpace last = false
  whole : '\n' ∉ line

def lastLine (text : Text) : Text :=
  stripBy isConfigSpace (text.rtakeWhile (· ≠ '\n'))

variable {enters} {line text : Text}

theorem configLines_append (plain : Plain line) (text : Text) : ∃ front joined : List Text,
    configLines text = front ++ [lastLine text] ∧
      configLines (text ++ (line ++ ['\n'])) = front ++ joined ++ [[]] ∧
      (lastLine text = [] → joined = [line]) ∧
      (lastLine text ≠ [] → ∃ rest, rest ≠ [] ∧ joined = [lastLine text ++ rest]) := by
  obtain ⟨front, before, after⟩ := splitOn_lastLine text
  obtain ⟨first, starts, kept, -⟩ := plain.starts
  obtain ⟨last, ends, held⟩ := plain.ends
  have stripped := stripBy_append starts ends kept held (text.rtakeWhile (· ≠ '\n'))
  refine ⟨front.map (stripBy isConfigSpace),
    [stripBy isConfigSpace (text.rtakeWhile (· ≠ '\n') ++ line)], ?_, ?_, ?_, ?_⟩
  · rw [configLines, before, List.map_append, lastLine]
    rfl
  · rw [configLines, after line plain.whole, List.map_append, List.append_assoc]
    rfl
  · intro blank
    rw [lastLine] at blank
    rw [stripped, if_pos blank]
  · intro some_text
    rw [lastLine] at some_text
    obtain ⟨rest, same⟩ := stripBy_prefix isConfigSpace (text.rtakeWhile (· ≠ '\n'))
    have some_line : line ≠ [] := by
      rintro rfl
      cases starts
    refine ⟨rest ++ line, by simp [some_line], ?_⟩
    rw [stripped, if_neg some_text, ← same, lastLine, List.append_assoc]

theorem directives_single (sections : List Bool) (line : Text) :
    directives enters sections [line] = if isDirective line then [⟨sections.all id, line⟩] else [] := by
  simp [directives]

theorem directives_ended (sections : List Bool) (line : Text) :
    directives enters sections [line, []] = directives enters sections [line] := by
  have empty : isDirective [] = false := rfl
  simp [directives, empty]

-- Behind a blank end of the file the line is a directive of its own, in the open sections.
theorem directives_blank (plain : Plain line) (blank : lastLine text = []) :
    directives enters [] (configLines (text ++ (line ++ ['\n']))) =
      directives enters [] (configLines text) ++
        [⟨(openSections enters (configLines text)).all id, line⟩] := by
  obtain ⟨front, joined, before, after, alone, -⟩ := configLines_append plain text
  obtain ⟨first, starts, -, noted, -⟩ := plain.starts
  have some_line : line ≠ [] := by
    rintro rfl
    cases starts
  have directive : isDirective line = true := by
    simp [isDirective, some_line, starts, noted]
  have still : ∀ sections, nextSections enters sections [] = sections := fun _ => rfl
  have empty : isDirective [] = false := rfl
  rw [before, after, alone blank, blank]
  simp [directives_append, directives_ended, directives_single, openSections, directive, still, empty]

-- Behind a comment the line is a part of the comment.
theorem directives_comment (plain : Plain line) (comment : (lastLine text).head? = some '#') :
    directives enters [] (configLines (text ++ (line ++ ['\n']))) =
      directives enters [] (configLines text) := by
  obtain ⟨front, joined, before, after, -, longer⟩ := configLines_append plain text
  have some_text : lastLine text ≠ [] := by
    intro blank
    rw [blank] at comment
    cases comment
  obtain ⟨rest, -, rfl⟩ := longer some_text
  have noted : isDirective (lastLine text) = false := by
    simp [isDirective, comment]
  have longer_noted : isDirective (lastLine text ++ rest) = false := by
    simp [isDirective, List.head?_append, comment]
  rw [before, after]
  simp [directives_append, directives_ended, directives_single, noted, longer_noted]

-- Behind a directive without its line feed the line changes that directive.
theorem directives_spoiled (plain : Plain line) (cut : isDirective (lastLine text) = true) :
    ¬ (directives enters [] (configLines text)).Sublist
      (directives enters [] (configLines (text ++ (line ++ ['\n'])))) := by
  obtain ⟨front, joined, before, after, -, longer⟩ := configLines_append plain text
  have some_text : lastLine text ≠ [] := by
    intro blank
    rw [blank] at cut
    cases cut
  obtain ⟨rest, some_rest, rfl⟩ := longer some_text
  have directive : isDirective (lastLine text ++ rest) = true := by
    cases text : lastLine text with
    | nil => exact absurd text some_text
    | cons c others =>
      rw [text] at cut
      simpa [isDirective] using cut
  rw [before, after, List.append_assoc, List.singleton_append]
  simp only [directives_append, directives_ended, directives_single, cut, directive, if_true]
  intro kept
  have same := kept.eq_of_length (by simp)
  have texts := (List.append_cancel_left same)
  simp at texts
  exact some_rest texts

end Appended

end VmDeploy.Apache
