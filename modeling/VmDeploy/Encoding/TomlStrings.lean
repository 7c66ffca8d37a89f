import VmDeploy.Encoding.TomlReader

/-! Which texts between quotation marks are read as themselves.

A text with a quotation mark, a backslash or a control character is read as another one, where
it is read at all. Where it closes early or has an escape, too little is left. Where it opens a
string of many lines, which then runs into the lines below, the end of its own line would have
to come back inside it, each time closer to its start. -/

set_option autoImplicit false

namespace Toml

def isPlain (c : Char) : Bool :=
  c ≠ '"' && c ≠ '\\' && !isIllegal c

theorem isPlain_iff {c : Char} :
    isPlain c = true ↔ c ≠ '"' ∧ c ≠ '\\' ∧ isIllegal c = false := by
  simp [isPlain, and_assoc]

theorem basicText_plain {text : Text} (plain : ∀ c ∈ text, isPlain c = true) (before rest : Text) :
    basicText false .plain before (text ++ '"' :: rest) = some (before ++ text, rest) := by
  induction text generalizing before with
  | nil => simp [basicText]
  | cons c text ih =>
    obtain ⟨here, later⟩ := List.forall_mem_cons.mp plain
    obtain ⟨unquoted, unescaped, legal⟩ := isPlain_iff.mp here
    have next := ih later (before ++ [c])
    simp only [List.append_assoc, List.singleton_append] at next
    simp [basicText, stringStep, unquoted, unescaped, legal, next]

-- A step adds one character at most; between characters it is the one that was read.
theorem stringStep_adds {multiline : Bool} {c : Char} {mode next : StringMode} {added : Text}
    (steps : stringStep multiline c mode = some (added, next)) :
    added.length ≤ 1 ∧ (mode = .plain →
      (c = '\\' ∧ added = [] ∧ next = .escape) ∨
        (c ≠ '\\' ∧ (isIllegal c = false ∨ multiline = true ∧ c = '\n') ∧ added = [c] ∧
          next = .plain)) := by
  have between : stringStep multiline c .plain = some (added, next) →
      (c = '\\' ∧ added = [] ∧ next = .escape) ∨
        (c ≠ '\\' ∧ (isIllegal c = false ∨ multiline = true ∧ c = '\n') ∧ added = [c] ∧
          next = .plain) := by
    intro steps
    by_cases escapes : c = '\\'
    · simp only [stringStep, escapes, if_true, Option.some.injEq, Prod.mk.injEq] at steps
      exact .inl ⟨escapes, steps.1.symm, steps.2.symm⟩
    · simp only [stringStep, escapes, if_false] at steps
      split at steps
      · cases steps
      · next legal =>
        cases steps
        refine .inr ⟨escapes, ?_, rfl, rfl⟩
        cases illegal : isIllegal c with
        | false => exact .inl rfl
        | true => simpa [illegal] using legal
  refine ⟨?_, fun plain => between (plain ▸ steps)⟩
  cases mode with
  | plain | trim =>
    rcases between steps with ⟨-, rfl, -⟩ | ⟨-, -, rfl, -⟩ <;> simp
  | escape =>
    simp only [stringStep, escapeMode] at steps
    split_ifs at steps
    · cases steps
      simp
    · cases steps
      simp
    · cases steps
      simp
    · cases steps
      simp
    · obtain ⟨char, -, same⟩ := Option.map_eq_some_iff.mp steps
      cases same
      simp
  | hex left code =>
    simp only [stringStep, Option.bind_eq_bind, Option.bind_eq_some_iff] at steps
    obtain ⟨digit, -, steps⟩ := steps
    split_ifs at steps <;> cases steps <;> simp
  | trimLine =>
    simp only [stringStep] at steps
    split_ifs at steps <;> cases steps <;> simp

-- What is read before the end of the line is no longer than the text, and shorter where
-- a character does not stand for itself.
theorem basicText_line {text before rest value after : Text} {mode : StringMode}
    (read : basicText false mode before (text ++ '"' :: '\n' :: rest) = some (value, after)) :
    ∃ body, value = before ++ body ∧ body.length ≤ text.length ∧
      (mode = .plain → (∃ c ∈ text, isPlain c = false) → body.length < text.length) := by
  induction text generalizing mode before with
  | nil =>
    have closes : value = before := by
      cases mode <;>
        simp [basicText, stringStep, escapeMode, unescaped?, isFiller, isBlank, isIllegal,
          hexDigit?] at read <;> simp [read]
    exact ⟨[], by rw [closes, List.append_nil], Nat.le_refl _, fun _ none => by simp at none⟩
  | cons c text ih =>
    rw [List.cons_append] at read
    unfold basicText at read
    by_cases filler : mode = .trim ∧ isFiller c = true
    · rw [if_pos filler] at read
      obtain ⟨body, parts, short, -⟩ := ih read
      refine ⟨body, parts, by simp only [List.length_cons]; omega, fun plain => ?_⟩
      rw [filler.1] at plain
      cases plain
    by_cases closes : c = '"' ∧ (mode = .plain ∨ mode = .trim)
    · rw [if_neg filler, if_pos closes, if_pos (by simp)] at read
      cases read
      exact ⟨[], by simp, by simp, fun _ _ => by simp⟩
    · rw [if_neg filler, if_neg closes] at read
      cases steps : stringStep false c mode with
      | none => simp [steps] at read
      | some pair =>
        obtain ⟨added, next⟩ := pair
        simp only [steps] at read
        obtain ⟨body, parts, short, strict⟩ := ih read
        obtain ⟨one, between⟩ := stringStep_adds steps
        refine ⟨added ++ body, by rw [parts, List.append_assoc], ?_, ?_⟩
        · simp only [List.length_append, List.length_cons]
          omega
        · rintro plain ⟨d, member, strange⟩
          simp only [List.length_append, List.length_cons]
          rcases between plain with ⟨-, rfl, -⟩ | ⟨unescaped, legal, rfl, following⟩
          · simp only [List.length_nil]
            omega
          · have lawful : isPlain c = true :=
              isPlain_iff.mpr ⟨fun quote => closes ⟨quote, .inl plain⟩, unescaped,
                legal.resolve_right (by simp)⟩
            have inside : d ∈ text := by
              refine (List.mem_cons.mp member).resolve_left fun same => ?_
              rw [same, lawful] at strange
              cases strange
            have shorter := strict following ⟨d, inside, strange⟩
            simp only [List.length_singleton]
            omega

/-- One character of a string of many lines, where it does not close the string. -/
def lineStep (c : Char) (mode : StringMode) : Option (Text × StringMode) :=
  if mode = .trim ∧ isFiller c = true then some ([], .trim)
  else if c = '"' ∧ (mode = .plain ∨ mode = .trim) then some (['"'], .plain)
  else stringStep true c mode

/-- What the characters of a text add up to, from one mode to another. -/
inductive Adds : StringMode → Text → Text → StringMode → Prop where
  | nil (mode : StringMode) : Adds mode [] [] mode
  | cons {mode next last : StringMode} {c : Char} {added text more : Text}
      (steps : lineStep c mode = some (added, next)) (rest : Adds next text more last) :
      Adds mode (c :: text) (added ++ more) last

theorem Adds.append {mode last : StringMode} {front back body : Text}
    (adds : Adds mode (front ++ back) body last) :
    ∃ first middle second, Adds mode front first middle ∧ Adds middle back second last ∧
      body = first ++ second := by
  induction front generalizing mode body with
  | nil => exact ⟨[], mode, body, .nil mode, adds, rfl⟩
  | cons c front ih =>
    rw [List.cons_append] at adds
    cases adds with
    | cons steps rest =>
      obtain ⟨first, middle, second, starts, ends, rfl⟩ := ih rest
      exact ⟨_, middle, second, .cons steps starts, ends, by rw [List.append_assoc]⟩

theorem Adds.length_le {mode last : StringMode} {text body : Text}
    (adds : Adds mode text body last) : body.length ≤ text.length := by
  induction adds with
  | nil => exact Nat.le_refl _
  | @cons mode next last c added text more steps rest ih =>
    have one : added.length ≤ 1 := by
      unfold lineStep at steps
      split_ifs at steps
      · cases steps
        simp
      · cases steps
        simp
      · exact (stringStep_adds steps).1
    simp only [List.length_append, List.length_cons]
    omega

theorem lineStep_quote {mode next : StringMode} {added : Text}
    (steps : lineStep '"' mode = some (added, next)) : added = ['"'] ∧ next = .plain := by
  cases mode <;>
    simp [lineStep, stringStep, escapeMode, unescaped?, isFiller, isBlank, hexDigit?] at steps <;>
    simp [steps]

theorem lineStep_plain {c : Char} {next : StringMode} {added : Text} (unescaped : c ≠ '\\')
    (steps : lineStep c .plain = some (added, next)) : added = [c] ∧ next = .plain := by
  rw [lineStep, if_neg (by simp)] at steps
  by_cases quote : c = '"' ∧ (StringMode.plain = .plain ∨ StringMode.plain = .trim)
  · rw [if_pos quote] at steps
    cases steps
    simp [quote.1]
  · rw [if_neg quote] at steps
    rcases (stringStep_adds steps).2 rfl with ⟨escape, -, -⟩ | ⟨-, -, added, next⟩
    · exact absurd escape unescaped
    · exact ⟨added, next⟩

-- The end of a line, and what comes next, are taken as they are.
theorem Adds.line {mode last : StringMode} {c : Char} {text body : Text} (unescaped : c ≠ '\\')
    (adds : Adds mode ('"' :: '\n' :: c :: text) body last) :
    ∃ more, body = '"' :: '\n' :: c :: more := by
  cases adds with
  | cons first rest =>
    obtain ⟨rfl, rfl⟩ := lineStep_quote first
    cases rest with
    | cons second rest =>
      obtain ⟨rfl, rfl⟩ := lineStep_plain (by decide) second
      cases rest with
      | cons third rest =>
        obtain ⟨rfl, rfl⟩ := lineStep_plain unescaped third
        exact ⟨_, rfl⟩

theorem basicText_adds {text before value after : Text} {mode : StringMode}
    (read : basicText true mode before text = some (value, after)) :
    ∃ body added last, text = body ++ '"' :: '"' :: '"' :: after ∧ Adds mode body added last ∧
      value = before ++ added := by
  induction text generalizing mode before with
  | nil => cases read
  | cons c text ih =>
    unfold basicText at read
    have onwards : ∀ (added : Text) (next : StringMode), lineStep c mode = some (added, next) →
        basicText true next (before ++ added) text = some (value, after) →
        ∃ body added last, c :: text = body ++ '"' :: '"' :: '"' :: after ∧
          Adds mode body added last ∧ value = before ++ added := by
      intro added next steps read
      obtain ⟨body, more, last, rfl, adds, rfl⟩ := ih read
      exact ⟨c :: body, added ++ more, last, rfl, .cons steps adds, by rw [List.append_assoc]⟩
    by_cases filler : mode = .trim ∧ isFiller c = true
    · rw [if_pos filler] at read
      refine onwards [] .trim (by rw [lineStep, if_pos filler]) ?_
      rwa [List.append_nil]
    by_cases quote : c = '"' ∧ (mode = .plain ∨ mode = .trim)
    · have steps : lineStep c mode = some (['"'], .plain) := by
        rw [lineStep, if_neg filler, if_pos quote]
      rw [if_neg filler, if_pos quote, if_neg (by simp)] at read
      split at read
      · cases read
        exact ⟨[], [], mode, by rw [quote.1, List.nil_append], .nil mode, by simp⟩
      · exact onwards _ _ steps read
    · rw [if_neg filler, if_neg quote] at read
      cases steps : stringStep true c mode with
      | none => simp [steps] at read
      | some pair =>
        obtain ⟨added, next⟩ := pair
        simp only [steps] at read
        refine onwards _ _ ?_ read
        rw [lineStep, if_neg filler, if_neg quote, steps]

theorem withQuotes_adds (body rest : Text) :
    ∃ extra, (withQuotes '"' body rest).1 = body ++ extra ∧ extra.length ≤ 2 := by
  unfold withQuotes
  split
  · split_ifs
    · exact ⟨[], by simp, by simp⟩
    · exact ⟨['"'], rfl, by simp⟩
    · exact ⟨['"', '"'], rfl, by simp⟩
  · split_ifs
    · exact ⟨[], by simp, by simp⟩
    · exact ⟨['"'], rfl, by simp⟩
  · exact ⟨[], by simp, by simp⟩

theorem withoutReturns_cons {c : Char} (other : c ≠ '\r') (text : Text) :
    withoutReturns (c :: text) = c :: withoutReturns text := by
  rw [withoutReturns]
  rintro rest rfl
  exact absurd rfl other

theorem withoutReturns_append (text : Text) {rest : Text} (other : rest.head? ≠ some '\n') :
    withoutReturns (text ++ rest) = withoutReturns text ++ withoutReturns rest := by
  induction text using withoutReturns.induct with
  | case1 text ih => simp only [List.cons_append, withoutReturns, ih]
  | case2 c text single ih =>
    have alone : ∀ more, c = '\r' → text ++ rest = '\n' :: more → False := by
      intro more first next
      cases text with
      | nil => exact other (by rw [← List.nil_append rest, next]; rfl)
      | cons d text =>
        obtain ⟨rfl, -⟩ := List.cons.inj next
        exact single text first rfl
    rw [List.cons_append, withoutReturns, ih, withoutReturns]
    · rfl
    · exact fun more first next => single more first next
    · exact fun more first next => alone more first next
  | case3 => rfl

theorem withoutReturns_length (text : Text) : (withoutReturns text).length ≤ text.length := by
  induction text using withoutReturns.induct with
  | case1 text ih =>
    simp only [withoutReturns, List.length_cons]
    omega
  | case2 c text single ih =>
    rw [withoutReturns]
    · simpa using ih
    · exact fun more first next => single more first next
  | case3 => exact Nat.le_refl _

theorem withoutReturns_plain {text : Text} (strange : ∃ c ∈ text, isPlain c = false) :
    ∃ c ∈ withoutReturns text, isPlain c = false := by
  induction text using withoutReturns.induct with
  | case1 text ih => exact ⟨'\n', by simp [withoutReturns], by decide⟩
  | case2 c text single ih =>
    rw [withoutReturns]
    · obtain ⟨d, member, odd⟩ := strange
      rcases List.mem_cons.mp member with rfl | later
      · exact ⟨d, List.mem_cons_self, odd⟩
      · obtain ⟨e, inside, odd⟩ := ih ⟨d, later, odd⟩
        exact ⟨e, List.mem_cons_of_mem c inside, odd⟩
    · exact fun more first next => single more first next
  | case3 => simp at strange

-- The line that opens the string ends inside it.
theorem line_inside {text more lead body after : Text}
    (other : ∀ c ∈ more.head?, c ≠ '"')
    (parts : text ++ '"' :: '\n' :: more = lead ++ body ++ '"' :: '"' :: '"' :: after)
    (long : text.length ≤ (lead ++ body).length) :
    ∃ c rest tail, more = c :: rest ∧ lead ++ body = text ++ '"' :: '\n' :: c :: tail := by
  rcases List.append_eq_append_iff.mp parts with ⟨inner, same, rest⟩ | ⟨inner, same, rest⟩
  · cases inner with
    | nil => simp at rest
    | cons a inner =>
      cases inner with
      | nil => simp at rest
      | cons b inner =>
        cases inner with
        | nil =>
          simp only [List.cons_append, List.nil_append, List.cons.injEq] at rest
          obtain ⟨-, -, rfl⟩ := rest
          exact absurd rfl (other '"' rfl)
        | cons c inner =>
          simp only [List.cons_append, List.cons.injEq] at rest
          obtain ⟨rfl, rfl, rfl⟩ := rest
          exact ⟨c, _, inner, rfl, same⟩
  · have none : inner = [] := by
      have sizes := congrArg List.length same
      rw [List.length_append] at sizes
      exact List.length_eq_zero_iff.mp (by omega)
    subst none
    simp at rest

-- A string of many lines that opens in front of the end of its own line is not read as the
-- text of that line: where the end of the line came first in what is read, it comes earlier.
theorem multilineBasic_line {text more value after : Text}
    (other : ∀ c ∈ more.head?, c ≠ '"' ∧ c ≠ '\\' ∧ c ≠ '\r')
    (read : multilineBasic (text ++ '"' :: '\n' :: more) = some (value, after)) :
    withoutReturns value ≠ '"' :: '"' :: text := by
  intro itself
  obtain ⟨⟨inner, left⟩, reads, closes⟩ := Option.map_eq_some_iff.mp read
  obtain ⟨body, added, last, parts, adds, same⟩ := basicText_adds reads
  obtain rfl : inner = added := same
  obtain ⟨extra, whole, two⟩ := withQuotes_adds inner left
  rw [closes] at whole
  obtain rfl : value = inner ++ extra := whole
  obtain ⟨lead, opened, first⟩ : ∃ lead, text ++ '"' :: '\n' :: more =
      lead ++ withoutNewline (text ++ '"' :: '\n' :: more) ∧
      (text.head? = some '\n' → lead = ['\n']) ∧ (lead = [] ∨ lead = ['\n']) := by
    cases text with
    | nil => exact ⟨[], rfl, by simp, .inl rfl⟩
    | cons c text =>
      by_cases newline : c = '\n'
      · subst newline
        exact ⟨['\n'], rfl, fun _ => rfl, .inr rfl⟩
      · refine ⟨[], ?_, fun starts => absurd (Option.some.inj starts) newline, .inl rfl⟩
        rw [List.cons_append, List.nil_append, withoutNewline]
        rintro rest same
        exact newline (List.cons.inj same).1
  rw [parts, ← List.append_assoc] at opened
  have long : text.length ≤ (lead ++ body).length := by
    have sizes := congrArg List.length itself
    have short := withoutReturns_length (inner ++ extra)
    have bounded := adds.length_le
    simp only [List.length_append, List.length_cons] at sizes short ⊢
    omega
  obtain ⟨c, rest, tail, rfl, line⟩ := line_inside (fun c here => (other c here).1) opened long
  obtain ⟨unquoted, unescaped, single⟩ := other c rfl
  -- no matter how short the text in front of it, the end of the line comes earlier
  have never : ∀ size front back, front.length = size →
      lead ++ body ≠ front ++ '"' :: '\n' :: c :: back := by
    intro size
    induction size using Nat.strongRecOn with
    | _ size ih =>
      intro front back sized found
      obtain ⟨kept, rfl, split⟩ : ∃ kept, front = lead ++ kept ∧
          body = kept ++ '"' :: '\n' :: c :: back := by
        rcases first.2 with rfl | rfl
        · exact ⟨front, rfl, found⟩
        · cases front with
          | nil => simp at found
          | cons d front =>
            obtain ⟨rfl, split⟩ := List.cons.inj found
            exact ⟨front, rfl, split⟩
      rw [split] at adds
      obtain ⟨added, middle, later, starts, ends, rfl⟩ := adds.append
      obtain ⟨later, rfl⟩ := ends.line unescaped
      have short := Nat.le_trans (withoutReturns_length added) starts.length_le
      rw [List.append_assoc, withoutReturns_append added (by simp), List.cons_append,
        List.cons_append, List.cons_append, withoutReturns_cons (by decide),
        withoutReturns_cons (by decide), withoutReturns_cons single] at itself
      cases shown : withoutReturns added with
      | nil =>
        rw [shown] at itself
        simp at itself
      | cons d some_shown =>
        rw [shown] at itself
        cases some_shown with
        | nil =>
          -- the text starts with a line end, which is dropped, and `c` comes first
          simp only [List.cons_append, List.nil_append, List.cons.injEq, true_and] at itself
          obtain ⟨rfl, rfl⟩ := itself
          obtain rfl := first.1 rfl
          rw [split] at line
          simp only [List.cons_append, List.nil_append, List.cons.injEq, true_and] at line
          cases kept with
          | nil => exact unquoted (List.cons.inj line).1.symm
          | cons e kept =>
            obtain ⟨rfl, -⟩ := List.cons.inj line
            cases starts with
            | cons steps rest =>
              obtain ⟨rfl, rfl⟩ := lineStep_plain unescaped steps
              rw [List.singleton_append, withoutReturns_cons single] at shown
              exact unquoted (List.cons.inj shown).1
        | cons e earlier =>
          simp only [List.cons_append, List.cons.injEq] at itself
          replace itself := itself.2.2
          rw [shown] at short
          simp only [List.length_cons, List.length_append] at short sized
          refine ih earlier.length (by omega) earlier
            (withoutReturns (later ++ extra) ++ '"' :: '\n' :: c :: tail) rfl ?_
          rw [line, ← itself]
          simp
  exact never _ text tail rfl line

theorem multilineBasic_alone {more value after : Text}
    (other : ∀ c ∈ more.head?, c ≠ '"' ∧ c ≠ '\\' ∧ c ≠ '\r')
    (read : multilineBasic ('\n' :: more) = some (value, after)) : withoutReturns value ≠ ['"'] := by
  intro itself
  obtain ⟨⟨inner, left⟩, reads, closes⟩ := Option.map_eq_some_iff.mp read
  obtain ⟨body, added, last, parts, adds, same⟩ := basicText_adds reads
  obtain rfl : inner = added := same
  obtain ⟨extra, whole, -⟩ := withQuotes_adds inner left
  rw [closes] at whole
  obtain rfl : value = inner ++ extra := whole
  replace parts : more = body ++ '"' :: '"' :: '"' :: left := parts
  subst parts
  cases adds with
  | nil => exact (other '"' rfl).1 rfl
  | @cons _ _ _ c _ _ _ steps rest =>
    obtain ⟨unquoted, unescaped, single⟩ := other c rfl
    obtain ⟨rfl, rfl⟩ := lineStep_plain unescaped steps
    rw [List.append_assoc, List.singleton_append, withoutReturns_cons single] at itself
    exact unquoted (List.cons.inj itself).1

section Values

variable {digitLimit : Option Nat} {text more : Text}

theorem readValue_plain (plain : ∀ c ∈ text, isPlain c = true) (fuel : Nat) :
    readValue digitLimit (fuel + 1) ('"' :: (text ++ '"' :: '\n' :: more)) =
      some (.string (String.ofList text), '\n' :: more) := by
  rw [readValue, basicText_plain plain]
  · rfl
  · intro rest triple
    cases text with
    | nil => simp at triple
    | cons c text =>
      obtain ⟨rfl, -⟩ := List.cons.inj triple
      cases plain '"' List.mem_cons_self

-- What is read at the place of a text that is not plain is not that text.
theorem readValue_strange {fuel : Nat} {value : Value} {rest : Text}
    (strange : ∃ c ∈ text, isPlain c = false)
    (other : ∀ c ∈ more.head?, c ≠ '"' ∧ c ≠ '\\' ∧ c ≠ '\r')
    (read : readValue digitLimit (fuel + 1) ('"' :: (withoutReturns text ++ '"' :: '\n' :: more)) =
      some (value, rest)) :
    ∃ found, value = .string (String.ofList found) ∧ found ≠ text := by
  have seen := withoutReturns_plain strange
  have short := withoutReturns_length text
  have single : (∀ rest, withoutReturns text ++ '"' :: '\n' :: more ≠ '"' :: '"' :: rest) →
      ∃ found, value = .string (String.ofList found) ∧ found ≠ text := by
    intro single
    rw [readValue] at read
    · obtain ⟨⟨found, left⟩, reads, same⟩ := Option.map_eq_some_iff.mp read
      obtain ⟨body, parts, -, shorter⟩ := basicText_line reads
      cases same
      refine ⟨found, rfl, fun itself => ?_⟩
      have size := shorter rfl seen
      rw [← itself, parts, List.nil_append] at short
      rw [← itself, parts, List.nil_append] at size
      omega
    · exact fun rest triple => single rest triple
  have many : ∀ {inner : Text}, (multilineBasic inner).map (fun read =>
      (Value.string (String.ofList read.1), read.2)) = some (value, rest) →
      (∀ found left, multilineBasic inner = some (found, left) →
        withoutReturns found ≠ withoutReturns text) →
      ∃ found, value = .string (String.ofList found) ∧ found ≠ text := by
    intro inner read differs
    obtain ⟨⟨found, left⟩, reads, same⟩ := Option.map_eq_some_iff.mp read
    cases same
    exact ⟨found, rfl, fun itself => differs found left reads (by rw [itself])⟩
  cases source : withoutReturns text with
  | nil => simp [source] at seen
  | cons a source' =>
    by_cases first : a = '"'
    · subst first
      cases source' with
      | nil =>
        rw [source] at read
        exact many read fun found left reads => source ▸ multilineBasic_alone other reads
      | cons b inner =>
        by_cases second : b = '"'
        · subst second
          rw [source] at read
          exact many read fun found left reads => source ▸ multilineBasic_line other reads
        · refine single fun rest triple => second ?_
          rw [source] at triple
          exact (List.cons.inj (List.cons.inj triple).2).1
    · refine single fun rest triple => first ?_
      rw [source] at triple
      exact (List.cons.inj triple).1

end Values

end Toml
