import VmDeploy.Encoding.TomlReader
import VmDeploy.Python.Paths

/-! No reader takes a carriage return, so a document is read alike with universal newlines. -/

set_option autoImplicit false

namespace Toml

open Python

/-- The rest is what is left of the text when characters other than the carriage return are taken
from its front. -/
inductive Leaves : Text → Text → Prop where
  | all (text : Text) : Leaves text text
  | take {c : Char} {text rest : Text} : c ≠ '\r' → Leaves text rest → Leaves (c :: text) rest

variable {text rest last : Text} {digitLimit : Option Nat}

theorem Leaves.trans (first : Leaves text rest) (second : Leaves rest last) : Leaves text last := by
  induction first with
  | all => exact second
  | take other _ ih => exact .take other (ih second)

theorem Leaves.mem (leaves : Leaves text rest) (member : '\r' ∈ text) : '\r' ∈ rest := by
  induction leaves with
  | all => exact member
  | take other _ ih => exact ih ((List.mem_cons.mp member).resolve_left other.symm)

theorem Leaves.one {c : Char} (other : c ≠ '\r') (rest : Text) : Leaves (c :: rest) rest :=
  .take other (.all rest)

theorem leaves_dropWhile {p : Char → Bool} (stops : p '\r' = false) (text : Text) :
    Leaves text (text.dropWhile p) := by
  induction text with
  | nil => exact .all []
  | cons c rest ih =>
    cases passes : p c with
    | false =>
      rw [List.dropWhile_cons_of_neg (by simp [passes])]
      exact .all _
    | true =>
      rw [List.dropWhile_cons_of_pos passes]
      refine .take ?_ ih
      rintro rfl
      rw [stops] at passes
      cases passes

theorem leaves_skipBlanks (text : Text) : Leaves text (skipBlanks text) :=
  leaves_dropWhile (by decide) text

theorem leaves_append {front : Text} (clean : ∀ c ∈ front, c ≠ '\r') (rest : Text) :
    Leaves (front ++ rest) rest := by
  induction front with
  | nil => exact .all rest
  | cons c front ih =>
    obtain ⟨here, later⟩ := List.forall_mem_cons.mp clean
    exact .take here (ih later)

theorem leaves_legal {front : Text} (legal : front.any isIllegal = false) (rest : Text) :
    Leaves (front ++ rest) rest := by
  refine leaves_append ?_ rest
  rintro c member rfl
  exact absurd (show isIllegal '\r' = true by decide) (List.any_eq_false.mp legal _ member)

theorem leaves_skipComment (skips : skipComment text = some rest) : Leaves text rest := by
  unfold skipComment at skips
  split at skips
  · next after =>
    split at skips
    · cases skips
    · next legal =>
      cases skips
      have whole := List.takeWhile_append_dropWhile (p := (decide <| · ≠ '\n')) (l := after)
      have line := leaves_legal (Bool.eq_false_iff.mpr legal) (after.dropWhile (· ≠ '\n'))
      rw [whole] at line
      exact .take (by decide) line
  · cases skips
    exact .all _

theorem leaves_skipFiller {commented : Bool} (skips : skipFiller commented text = some rest) :
    Leaves text rest := by
  induction text generalizing commented with
  | nil =>
    cases skips
    exact .all _
  | cons c after ih =>
    rw [skipFiller] at skips
    by_cases returned : c = '\r'
    · subst returned
      have illegal : isIllegal '\r' = true := by decide
      have other : isFiller '\r' = false := by decide
      cases commented <;> simp [illegal, other] at skips
      rw [← skips]
      exact .all _
    · split_ifs at skips
      · exact .take returned (ih skips)
      · exact .take returned (ih skips)
      · exact .take returned (ih skips)
      · exact .take returned (ih skips)
      · cases skips
        exact .all _

theorem stringStep_return (multiline : Bool) (mode : StringMode) :
    stringStep multiline '\r' mode = none := by
  cases mode with
  | hex left code => rfl
  | _ => cases multiline <;> rfl

theorem leaves_basicText {multiline : Bool} {mode : StringMode} {before body : Text}
    (read : basicText multiline mode before text = some (body, rest)) : Leaves text rest := by
  fun_induction basicText multiline mode before text with
  | case1 => cases read
  | case2 mode before c after skipped ih =>
    refine .take ?_ (ih read)
    rintro rfl
    exact absurd skipped.2 (by decide)
  | case3 mode before c after _ closing single =>
    cases read
    exact .one (by rw [closing.1]; decide) _
  | case4 mode before c _ closing multi after =>
    cases read
    exact .take (by rw [closing.1]; decide) (.take (by decide) (.one (by decide) _))
  | case5 mode before c after _ closing multi _ ih =>
    exact .take (by rw [closing.1]; decide) (ih read)
  | case6 mode before c after _ _ added next steps ih =>
    refine .take ?_ (ih read)
    rintro rfl
    rw [stringStep_return] at steps
    cases steps
  | case7 => cases read

theorem leaves_literalText {body : Text} (read : literalText text = some (body, rest)) :
    Leaves text rest := by
  have whole := List.takeWhile_append_dropWhile (p := (decide <| · ≠ '\'')) (l := text)
  unfold literalText at read
  dsimp only at read
  split at read
  · next quote after drops =>
    split_ifs at read with illegal
    cases read
    have front := leaves_legal (Bool.eq_false_iff.mpr illegal) (text.dropWhile (· ≠ '\''))
    rw [whole, drops] at front
    have closing : quote = '\'' := by
      have head := List.head?_dropWhile_not (decide <| · ≠ '\'') text
      rw [drops] at head
      simpa using head
    exact front.trans (.one (by rw [closing]; decide) _)
  · cases read

theorem tripleText_eq {body : Text} (read : tripleText text = some (body, rest)) :
    text = body ++ ['\'', '\'', '\''] ++ rest := by
  fun_induction tripleText text generalizing body with
  | case1 => cases read
  | case2 after =>
    cases read
    rfl
  | case3 c after _ ih =>
    obtain ⟨⟨inner, left⟩, found, same⟩ := Option.map_eq_some_iff.mp read
    cases same
    rw [ih found]
    rfl

theorem leaves_withQuotes {quote : Char} (other : quote ≠ '\r') (body text : Text) :
    Leaves text (withQuotes quote body text).2 := by
  match text with
  | [] => exact .all []
  | [c] =>
    simp only [withQuotes]
    split_ifs with here
    · exact .all _
    · exact .one (by rwa [not_not.mp here]) _
  | c :: d :: rest =>
    simp only [withQuotes]
    split_ifs with first second
    · exact .all _
    · exact .one (by rwa [not_not.mp first]) _
    · exact .take (by rwa [not_not.mp first]) (.one (by rwa [not_not.mp second]) _)

theorem leaves_withoutNewline (text : Text) : Leaves text (withoutNewline text) := by
  unfold withoutNewline
  split
  · exact .one (by decide) _
  · exact .all _

theorem leaves_multilineBasic {body : Text} (read : multilineBasic text = some (body, rest)) :
    Leaves text rest := by
  obtain ⟨⟨inner, left⟩, found, same⟩ := Option.map_eq_some_iff.mp read
  have closed := leaves_withQuotes (show '"' ≠ '\r' by decide) inner left
  rw [same] at closed
  exact (leaves_withoutNewline text).trans ((leaves_basicText found).trans closed)

theorem leaves_multilineLiteral {body : Text} (read : multilineLiteral text = some (body, rest)) :
    Leaves text rest := by
  unfold multilineLiteral at read
  obtain ⟨⟨inner, left⟩, found, read⟩ := Option.bind_eq_some_iff.mp read
  dsimp only at read
  split_ifs at read with illegal
  have closed := leaves_withQuotes (show '\'' ≠ '\r' by decide) inner left
  rw [Option.some.inj read] at closed
  have front : ∀ c ∈ inner ++ ['\'', '\'', '\''], c ≠ '\r' := by
    intro c member
    rcases List.mem_append.mp member with inside | quote
    · rintro rfl
      exact illegal (List.any_eq_true.mpr ⟨_, inside, by decide⟩)
    · simp only [List.mem_cons, List.not_mem_nil, or_false, or_self] at quote
      rw [quote]
      decide
  have opened := leaves_withoutNewline text
  rw [tripleText_eq found] at opened
  exact opened.trans ((leaves_append front left).trans closed)

theorem leaves_keyPart {part : String} (read : keyPart text = some (part, rest)) :
    Leaves text rest := by
  unfold keyPart at read
  split at read
  · obtain ⟨⟨body, left⟩, found, same⟩ := Option.map_eq_some_iff.mp read
    cases same
    exact .take (by decide) (leaves_basicText found)
  · obtain ⟨⟨body, left⟩, found, same⟩ := Option.map_eq_some_iff.mp read
    cases same
    exact .take (by decide) (leaves_literalText found)
  · split at read
    · cases read
    · cases read
      exact leaves_dropWhile (by decide) _

theorem leaves_readKey {parts : Nat} {key : Key} (read : readKey parts text = some (key, rest)) :
    Leaves text rest := by
  induction parts generalizing text key rest with
  | zero => cases read
  | succ parts ih =>
    unfold readKey at read
    obtain ⟨⟨part, after⟩, found, read⟩ := Option.bind_eq_some_iff.mp read
    have first := (leaves_keyPart found).trans (leaves_skipBlanks after)
    dsimp only at read
    split at read
    · next further dotted =>
      obtain ⟨⟨more, left⟩, again, same⟩ := Option.bind_eq_some_iff.mp read
      cases same
      rw [dotted] at first
      exact first.trans (.take (by decide) ((leaves_skipBlanks further).trans (ih again)))
    · cases read
      exact first

theorem leaves_digitRun {isDigit : Char → Bool} (stops : isDigit '\r' = false) (text : Text) :
    Leaves text (digitRun isDigit text) := by
  have digit : ∀ {c : Char}, isDigit c = true → c ≠ '\r' := by
    rintro c passes rfl
    rw [stops] at passes
    cases passes
  fun_induction digitRun isDigit text with
  | case1 => exact .all []
  | case2 c rest passes ih => exact .take (digit passes) ih
  | case3 d rest passes _ ih => exact .take (by decide) (.take (digit passes) ih)
  | case4 => exact .all _
  | case5 => exact .all _

theorem isDigit_ne {c : Char} (digit : c.isDigit = true) : c ≠ '\r' := by
  rintro rfl
  cases digit

theorem leaves_radixNumber {value : Value} (read : radixNumber text = some (value, rest)) :
    Leaves text rest := by
  unfold radixNumber at read
  split at read
  · next mark c after =>
    obtain ⟨⟨base, isDigit⟩, based, read⟩ := Option.bind_eq_some_iff.mp read
    dsimp only at read
    split_ifs at read with digit
    cases read
    have marked : mark ≠ '\r' ∧ isDigit '\r' = false := by
      unfold radix? at based
      split at based <;> cases based <;> exact ⟨by decide, by decide⟩
    have other : c ≠ '\r' := by
      rintro rfl
      rw [marked.2] at digit
      cases digit
    exact .take (by decide) (.take marked.1 (.take other (leaves_digitRun marked.2 after)))
  · cases read

theorem leaves_skipSign (text : Text) : Leaves text (skipSign text) := by
  unfold skipSign
  split
  · exact .one (by decide) _
  · exact .one (by decide) _
  · exact .all _

theorem leaves_integerPart (read : integerPart text = some rest) : Leaves text rest := by
  unfold integerPart at read
  split at read
  · cases read
    exact .one (by decide) _
  · split_ifs at read with digit
    cases read
    exact .take (isDigit_ne digit) (leaves_digitRun (by decide) _)
  · cases read

theorem leaves_skipFraction (text : Text) : Leaves text (skipFraction text) := by
  unfold skipFraction
  split
  · split_ifs with digit
    · exact .take (by decide) (.take (isDigit_ne digit) (leaves_digitRun (by decide) _))
    · exact .all _
  · exact .all _

theorem leaves_skipExponent (text : Text) : Leaves text (skipExponent text) := by
  unfold skipExponent
  split
  · next mark after =>
    split_ifs with marked
    · have other : mark ≠ '\r' := by
        rcases marked with rfl | rfl <;> decide
      have sign := leaves_skipSign after
      split
      · next c further skipped =>
        rw [skipped] at sign
        split_ifs with digit
        · exact .take other (sign.trans (.take (isDigit_ne digit) (leaves_digitRun (by decide) _)))
        · exact .all _
      · exact .all _
    · exact .all _
  · exact .all _

theorem leaves_decimalNumber {value : Value} (read : decimalNumber digitLimit text = some (value, rest)) :
    Leaves text rest := by
  unfold decimalNumber at read
  obtain ⟨whole, found, read⟩ := Option.bind_eq_some_iff.mp read
  have first := (leaves_skipSign text).trans (leaves_integerPart found)
  dsimp only at read
  split_ifs at read
  · cases read
    exact first.trans ((leaves_skipFraction whole).trans (leaves_skipExponent _))
  · cases read
    exact first

theorem leaves_pair {low high value : Nat} (read : pair? low high text = some (value, rest)) :
    Leaves text rest := by
  unfold pair? at read
  split at read
  · dsimp only at read
    split_ifs at read with digits
    cases read
    exact .take (isDigit_ne digits.1) (.one (isDigit_ne digits.2.1) _)
  · cases read

theorem leaves_char {expected : Char} (other : expected ≠ '\r') (read : char? expected text = some rest) :
    Leaves text rest := by
  unfold char? at read
  split at read
  · split_ifs at read with same
    cases read
    exact .one (by rwa [same]) _
  · cases read

theorem leaves_skipFractions (text : Text) : Leaves text (skipFractions text) := by
  unfold skipFractions
  split
  · split_ifs with digit
    · exact .take (by decide) (.take (isDigit_ne digit) (leaves_dropWhile (by decide) _))
    · exact .all _
  · exact .all _

theorem leaves_timeOfDay (read : timeOfDay text = some rest) : Leaves text rest := by
  unfold timeOfDay at read
  obtain ⟨⟨_, hours⟩, first, read⟩ := Option.bind_eq_some_iff.mp read
  obtain ⟨minutes, colon, read⟩ := Option.bind_eq_some_iff.mp read
  obtain ⟨⟨_, seconds⟩, second, read⟩ := Option.bind_eq_some_iff.mp read
  obtain ⟨digits, colon', read⟩ := Option.bind_eq_some_iff.mp read
  obtain ⟨⟨_, left⟩, third, same⟩ := Option.bind_eq_some_iff.mp read
  cases same
  have front := (leaves_pair first).trans ((leaves_char (by decide) colon).trans (leaves_pair second))
  have back := (leaves_char (by decide) colon').trans (leaves_pair third)
  exact front.trans (back.trans (leaves_skipFractions left))

theorem leaves_offset (read : offset? text = some rest) : Leaves text rest := by
  unfold offset? at read
  obtain ⟨⟨_, hours⟩, first, read⟩ := Option.bind_eq_some_iff.mp read
  obtain ⟨minutes, colon, read⟩ := Option.bind_eq_some_iff.mp read
  obtain ⟨⟨_, left⟩, second, same⟩ := Option.bind_eq_some_iff.mp read
  cases same
  exact (leaves_pair first).trans ((leaves_char (by decide) colon).trans (leaves_pair second))

theorem leaves_skipOffset (text : Text) : Leaves text (skipOffset text) := by
  unfold skipOffset
  split
  · exact .all _
  · split_ifs with zulu sign
    · exact .one (by rcases zulu with rfl | rfl <;> decide) _
    · next c after =>
      cases found : offset? after with
      | none => exact .all _
      | some left => exact .take (by rcases sign with rfl | rfl <;> decide) (leaves_offset found)
    · exact .all _

theorem leaves_date {date : Nat × Nat × Nat} (read : date? text = some (date, rest)) :
    Leaves text rest := by
  unfold date? at read
  obtain ⟨⟨_, century⟩, first, read⟩ := Option.bind_eq_some_iff.mp read
  obtain ⟨⟨_, year⟩, second, read⟩ := Option.bind_eq_some_iff.mp read
  obtain ⟨months, hyphen, read⟩ := Option.bind_eq_some_iff.mp read
  obtain ⟨⟨_, month⟩, third, read⟩ := Option.bind_eq_some_iff.mp read
  obtain ⟨days, hyphen', read⟩ := Option.bind_eq_some_iff.mp read
  obtain ⟨⟨_, left⟩, fourth, same⟩ := Option.bind_eq_some_iff.mp read
  cases same
  have years := (leaves_pair first).trans (leaves_pair second)
  have front := years.trans ((leaves_char (by decide) hyphen).trans (leaves_pair third))
  exact front.trans ((leaves_char (by decide) hyphen').trans (leaves_pair fourth))

theorem leaves_skipTime (text : Text) : Leaves text (skipTime text) := by
  unfold skipTime
  split
  · next c after =>
    split_ifs with mark
    · cases found : timeOfDay after with
      | none => exact .all _
      | some left =>
        have other : c ≠ '\r' := by
          rcases mark with rfl | rfl | rfl <;> decide
        exact .take other ((leaves_timeOfDay found).trans (leaves_skipOffset left))
    · exact .all _
  · exact .all _

theorem leaves_specialFloat {value : Value} (read : specialFloat text = some (value, rest)) :
    Leaves text rest := by
  have word : ∀ {word source : Text}, (∀ c ∈ word, c ≠ '\r') → word.isPrefixOf source = true →
      Leaves source (source.drop word.length) := by
    intro word source clean starts
    obtain ⟨after, rfl⟩ := List.isPrefixOf_iff_prefix.mp starts
    rw [List.drop_left]
    exact leaves_append clean after
  unfold specialFloat at read
  dsimp only at read
  split_ifs at read with special
  cases read
  refine (leaves_skipSign text).trans ?_
  rcases Bool.or_eq_true_iff.mp special with infinite | none
  · exact word (by simp) infinite
  · exact word (by simp) none

theorem leaves_plainValue {value : Value} (read : plainValue digitLimit text = some (value, rest)) :
    Leaves text rest := by
  unfold plainValue at read
  split at read
  · next dated =>
    dsimp only at read
    split_ifs at read
    cases read
    exact (leaves_date dated).trans (leaves_skipTime _)
  · split at read
    · next timed =>
      cases read
      exact leaves_timeOfDay timed
    · split at read
      · next based =>
        cases read
        exact leaves_radixNumber based
      · split at read
        · exact leaves_decimalNumber read
        · exact leaves_specialFloat read

/-- What the three readers of values take, within so many arrays and tables. -/
structure ValuesLeave (digitLimit : Option Nat) (fuel : Nat) : Prop where
  value : ∀ {text value rest}, readValue digitLimit fuel text = some (value, rest) → Leaves text rest
  elements : ∀ {text values rest},
    readElements digitLimit fuel text = some (values, rest) → Leaves text rest
  entries : ∀ {text before after flags rest},
    readEntries digitLimit fuel before flags text = some (after, rest) → Leaves text rest

theorem leaves_readValue {fuel : Nat} {value : Value} (inner : ValuesLeave digitLimit fuel)
    (read : readValue digitLimit (fuel + 1) text = some (value, rest)) : Leaves text rest := by
  unfold readValue at read
  split at read
  · obtain ⟨⟨body, left⟩, found, same⟩ := Option.map_eq_some_iff.mp read
    cases same
    exact .take (by decide) (.take (by decide) (.take (by decide) (leaves_multilineBasic found)))
  · obtain ⟨⟨body, left⟩, found, same⟩ := Option.map_eq_some_iff.mp read
    cases same
    exact .take (by decide) (leaves_basicText found)
  · obtain ⟨⟨body, left⟩, found, same⟩ := Option.map_eq_some_iff.mp read
    cases same
    exact .take (by decide) (.take (by decide) (.take (by decide) (leaves_multilineLiteral found)))
  · obtain ⟨⟨body, left⟩, found, same⟩ := Option.map_eq_some_iff.mp read
    cases same
    exact .take (by decide) (leaves_literalText found)
  · cases read
    exact .take (by decide) (.take (by decide) (.take (by decide) (.one (by decide) _)))
  · cases read
    exact .take (by decide) (.take (by decide) (.take (by decide) (.take (by decide)
      (.one (by decide) _))))
  · obtain ⟨after, skips, read⟩ := Option.bind_eq_some_iff.mp read
    have opened := Leaves.take (c := '[') (by decide) (leaves_skipFiller skips)
    split at read
    · cases read
      exact opened.trans (.one (by decide) _)
    · obtain ⟨⟨elements, left⟩, found, same⟩ := Option.bind_eq_some_iff.mp read
      cases same
      exact opened.trans (inner.elements found)
  · next after =>
    split at read
    · next closed =>
      cases read
      have blanks := leaves_skipBlanks after
      rw [closed] at blanks
      exact .take (by decide) (blanks.trans (.one (by decide) _))
    · obtain ⟨⟨entries, left⟩, found, same⟩ := Option.bind_eq_some_iff.mp read
      cases same
      exact .take (by decide) ((leaves_skipBlanks after).trans (inner.entries found))
  · exact leaves_plainValue read

theorem leaves_readElements {fuel : Nat} {values : List Value} (inner : ValuesLeave digitLimit fuel)
    (read : readElements digitLimit (fuel + 1) text = some (values, rest)) : Leaves text rest := by
  unfold readElements at read
  obtain ⟨⟨value, after⟩, found, read⟩ := Option.bind_eq_some_iff.mp read
  obtain ⟨between, skips, read⟩ := Option.bind_eq_some_iff.mp read
  have first := (inner.value found).trans (leaves_skipFiller skips)
  split at read
  · cases read
    exact first.trans (.one (by decide) _)
  · obtain ⟨further, skips', read⟩ := Option.bind_eq_some_iff.mp read
    have second := first.trans (.take (by decide) (leaves_skipFiller skips'))
    split at read
    · cases read
      exact second.trans (.one (by decide) _)
    · obtain ⟨⟨more, left⟩, again, same⟩ := Option.bind_eq_some_iff.mp read
      cases same
      exact second.trans (inner.elements again)
  · cases read

theorem leaves_readEntries {fuel : Nat} {before after : Table} {flags : Flags}
    (inner : ValuesLeave digitLimit fuel)
    (read : readEntries digitLimit (fuel + 1) before flags text = some (after, rest)) :
    Leaves text rest := by
  unfold readEntries at read
  obtain ⟨⟨key, named⟩, keyed, read⟩ := Option.bind_eq_some_iff.mp read
  obtain ⟨assigned, equals, read⟩ := Option.bind_eq_some_iff.mp read
  obtain ⟨⟨value, valued⟩, found, read⟩ := Option.bind_eq_some_iff.mp read
  have front := (leaves_readKey keyed).trans (leaves_char (by decide) equals)
  have first := front.trans ((leaves_skipBlanks assigned).trans (inner.value found))
  have entry := first.trans (leaves_skipBlanks valued)
  dsimp only at read
  split at read
  · cases read
  obtain ⟨entries, -, read⟩ := Option.bind_eq_some_iff.mp read
  split at read
  · next closed =>
    cases read
    rw [closed] at entry
    exact entry.trans (.one (by decide) _)
  · next further comma =>
    rw [comma] at entry
    exact entry.trans (.take (by decide) ((leaves_skipBlanks further).trans (inner.entries read)))
  · cases read

theorem valuesLeave (digitLimit : Option Nat) (fuel : Nat) : ValuesLeave digitLimit fuel := by
  induction fuel with
  | zero =>
    constructor
    · intro text value rest read
      cases read
    · intro text values rest read
      cases read
    · intro text before after flags rest read
      cases read
  | succ fuel inner =>
    exact ⟨leaves_readValue inner, leaves_readElements inner, leaves_readEntries inner⟩

section Documents

variable {header next : Key} {out after : Output}

theorem leaves_createTable (read : createTable out text = some (next, after, rest)) :
    Leaves text rest := by
  unfold createTable at read
  obtain ⟨⟨key, named⟩, keyed, read⟩ := Option.bind_eq_some_iff.mp read
  dsimp only at read
  split_ifs at read
  obtain ⟨data, -, read⟩ := Option.bind_eq_some_iff.mp read
  obtain ⟨left, closes, same⟩ := Option.bind_eq_some_iff.mp read
  cases same
  exact (leaves_skipBlanks text).trans ((leaves_readKey keyed).trans (leaves_char (by decide) closes))

theorem leaves_createList (read : createList out text = some (next, after, rest)) :
    Leaves text rest := by
  unfold createList at read
  obtain ⟨⟨key, named⟩, keyed, read⟩ := Option.bind_eq_some_iff.mp read
  dsimp only at read
  split_ifs at read
  obtain ⟨data, -, read⟩ := Option.bind_eq_some_iff.mp read
  obtain ⟨first, closes, read⟩ := Option.bind_eq_some_iff.mp read
  obtain ⟨left, closes', same⟩ := Option.bind_eq_some_iff.mp read
  cases same
  have keyed := (leaves_skipBlanks text).trans (leaves_readKey keyed)
  exact keyed.trans ((leaves_char (by decide) closes).trans (leaves_char (by decide) closes'))

theorem leaves_keyValue (read : keyValue digitLimit header out text = some (after, rest)) :
    Leaves text rest := by
  unfold keyValue at read
  obtain ⟨⟨key, named⟩, keyed, read⟩ := Option.bind_eq_some_iff.mp read
  obtain ⟨assigned, equals, read⟩ := Option.bind_eq_some_iff.mp read
  obtain ⟨⟨value, left⟩, found, read⟩ := Option.bind_eq_some_iff.mp read
  have front := (leaves_readKey keyed).trans (leaves_char (by decide) equals)
  have first := front.trans ((leaves_skipBlanks assigned).trans ((valuesLeave _ _).value found))
  dsimp only at read
  split at read
  · cases read
  split at read
  · cases read
  obtain ⟨data, -, same⟩ := Option.bind_eq_some_iff.mp read
  cases same
  exact first

theorem leaves_statement (read : statement digitLimit header out text = some (next, after, rest)) :
    Leaves text rest := by
  unfold statement at read
  split at read
  · exact .take (by decide) (.take (by decide) (leaves_createList read))
  · exact .take (by decide) (leaves_createTable read)
  · cases read
    exact .all _
  · split_ifs at read
    obtain ⟨⟨out, left⟩, found, same⟩ := Option.bind_eq_some_iff.mp read
    cases same
    exact leaves_keyValue found
  · cases read

-- A text that is read to its end has no carriage return.
theorem statements_return {fuel : Nat} {document : Table}
    (read : statements digitLimit fuel header out text = some document) : '\r' ∉ text := by
  induction fuel generalizing header out text with
  | zero => cases read
  | succ fuel ih =>
    intro member
    have blanks := leaves_skipBlanks text
    unfold statements at read
    split at read
    · next ended =>
      rw [ended] at blanks
      exact List.not_mem_nil (blanks.mem member)
    · next line ended =>
      rw [ended] at blanks
      exact ih read ((List.mem_cons.mp (blanks.mem member)).resolve_left (by decide))
    · obtain ⟨⟨key, made, left⟩, found, read⟩ := Option.bind_eq_some_iff.mp read
      obtain ⟨ended, skips, read⟩ := Option.bind_eq_some_iff.mp read
      have line := blanks.trans ((leaves_statement found).trans
        ((leaves_skipBlanks left).trans (leaves_skipComment skips)))
      have further := line.mem member
      split at read
      · exact List.not_mem_nil further
      · exact ih read ((List.mem_cons.mp further).resolve_left (by decide))
      · cases read

end Documents

theorem universalNewlines_withoutReturns (none : '\r' ∉ withoutReturns text) :
    universalNewlines text = withoutReturns text := by
  fun_induction withoutReturns text with
  | case1 rest ih =>
    rw [universalNewlines, ih fun member => none (List.mem_cons_of_mem _ member)]
  | case2 c rest apart ih =>
    have other : c ≠ '\r' := fun same => none (same ▸ List.mem_cons_self)
    rw [universalNewlines, ih fun member => none (List.mem_cons_of_mem _ member)]
    · exact apart
    · exact fun same => absurd same other
  | case3 => rfl

theorem withoutReturns_none (none : '\r' ∉ text) : withoutReturns text = text := by
  fun_induction withoutReturns text with
  | case1 => exact absurd List.mem_cons_self none
  | case2 c rest _ ih => rw [ih fun member => none (List.mem_cons_of_mem _ member)]
  | case3 => rfl

-- A document that is read is read alike with universal newlines.
theorem loads_universalNewlines {document : Table} (read : loads digitLimit text = some document) :
    loads digitLimit (universalNewlines text) = some document := by
  have none : '\r' ∉ withoutReturns text := statements_return read
  rw [loads, universalNewlines_withoutReturns none, withoutReturns_none none]
  exact read

end Toml
