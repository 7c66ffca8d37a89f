import VmDeploy.Config.Kept
import VmDeploy.Encoding.TomlLines
import VmDeploy.Setup.Identity

/-! The text of `_emit_toml`, and which mappings come back from it. -/

set_option autoImplicit false

open Toml hiding Text
open Python

namespace VmDeploy.Setup

open Config (valueAt)

def isScalarValue : Value → Bool
  | .boolean _ | .integer _ | .string _ => true
  | _ => false

/-- A table of scalars under bare keys. -/
structure Scalars (entries : Table) : Prop where
  distinct : (Dict.keys entries).Nodup
  bare : ∀ entry ∈ entries, IsBareKey entry.1
  scalar : ∀ entry ∈ entries, isScalarValue entry.2 = true

/-- Scalars and tables of scalars, under bare keys. -/
structure Mapping where
  data : Table
  distinct : (Dict.keys data).Nodup
  bare : ∀ entry ∈ data, IsBareKey entry.1
  shallow : ∀ entry ∈ data,
    isScalarValue entry.2 = true ∨ ∃ entries, entry.2 = .table entries ∧ Scalars entries

def Mapping.Holds (mapping : Mapping) (value : Value) : Prop :=
  (∃ key, (key, value) ∈ mapping.data) ∨
    ∃ name entries key, (name, .table entries) ∈ mapping.data ∧ (key, value) ∈ entries

def tableOf? : String × Value → Option (String × Table)
  | (name, .table entries) => some (name, entries)
  | _ => none

def asEntry (table : String × Table) : String × Value :=
  (table.1, .table table.2)

def Mapping.scalars (mapping : Mapping) : Table :=
  mapping.data.filter fun entry => !isMapping entry.2

def Mapping.tables (mapping : Mapping) : List (String × Table) :=
  mapping.data.filterMap tableOf?

variable (rt : Runtime)

def lineText (entry : String × Value) (more : Text) : Text :=
  entryText entry.1 ((renderValue rt entry.2).toList ++ '\n' :: more)

def entriesText (entries : Table) (more : Text) : Text :=
  entries.foldr (lineText rt) more

def laterText : List (String × Table) → Text
  | [] => []
  | table :: tables => '\n' :: headerText table.1 (entriesText rt table.2 (laterText tables))

def tablesText (tables : List (String × Table)) : Text :=
  (laterText rt tables).drop 1

def Mapping.text (mapping : Mapping) : Text :=
  entriesText rt mapping.scalars (tablesText rt mapping.tables)

variable {rt}

theorem lineText_append (entry : String × Value) (more rest : Text) :
    lineText rt entry (more ++ rest) = lineText rt entry more ++ rest := by
  simp [lineText, entryText]

theorem entriesText_append (entries : Table) (more rest : Text) :
    entriesText rt entries (more ++ rest) = entriesText rt entries more ++ rest := by
  induction entries with
  | nil => rfl
  | cons entry entries ih =>
    have whole : ∀ more, entriesText rt (entry :: entries) more =
        lineText rt entry (entriesText rt entries more) := fun _ => rfl
    rw [whole, whole, ih, lineText_append]

theorem headerText_append (name : String) (more rest : Text) :
    headerText name (more ++ rest) = headerText name more ++ rest := by
  simp [headerText]

def linesText (lines : List String) : Text :=
  lines.flatMap fun line => line.toList ++ ['\n']

theorem linesText_append (front back : List String) :
    linesText (front ++ back) = linesText front ++ linesText back := by
  simp [linesText]

theorem linesText_entries (entries : Table) (more : Text) :
    linesText (entryLines rt entries) ++ more = entriesText rt entries more := by
  induction entries with
  | nil => rfl
  | cons entry entries ih =>
    have line : entryLines rt (entry :: entries) =
        s!"{entry.1} = {renderValue rt entry.2}" :: entryLines rt entries := rfl
    have whole : entriesText rt (entry :: entries) more =
        lineText rt entry (entriesText rt entries more) := rfl
    rw [whole, ← ih, line]
    simp [linesText, lineText, entryText]
    rfl

-- The lines of the tables end with an empty one.
theorem linesText_tables (data : Table) :
    '\n' :: linesText (data.flatMap (tableLines rt)) =
      laterText rt (data.filterMap tableOf?) ++ ['\n'] := by
  induction data with
  | nil => rfl
  | cons entry data ih =>
    obtain ⟨name, value⟩ := entry
    rw [List.flatMap_cons, linesText_append]
    cases value with
    | table entries =>
      have lines : tableLines rt (name, .table entries) =
          s!"[{name}]" :: (entryLines rt entries ++ [""]) := rfl
      have found : ((name, Value.table entries) :: data).filterMap tableOf? =
          (name, entries) :: data.filterMap tableOf? := rfl
      have header : linesText (s!"[{name}]" :: (entryLines rt entries ++ [""])) =
          headerText name (linesText (entryLines rt entries) ++ ['\n']) := by
        simp [linesText, headerText]
        rfl
      rw [lines, header, found, laterText, List.cons_append, ← headerText_append,
        ← headerText_append, ← entriesText_append, ← ih, ← linesText_entries]
      simp
    | _ => exact ih

theorem intercalate_lines {lines : List String} (some_lines : lines ≠ []) :
    ("\n".intercalate lines).toList ++ ['\n'] = linesText lines := by
  rw [String.toList_intercalate]
  induction lines with
  | nil => exact absurd rfl some_lines
  | cons line lines ih =>
    cases lines with
    | nil => simp [linesText]
    | cons next lines =>
      have later := ih (by simp)
      simp only [List.map_cons, List.intercalate_cons_cons, List.append_assoc] at later ⊢
      rw [later]
      simp [linesText]

/-- The text ends with a line end after a character that is no white space. -/
def Closed (text : Text) : Prop :=
  ∃ front c, text = front ++ [c, '\n'] ∧ isSpace c = false

theorem Closed.behind {text : Text} (closed : Closed text) (front : Text) :
    Closed (front ++ text) := by
  obtain ⟨inner, c, rfl, visible⟩ := closed
  exact ⟨front ++ inner, c, by rw [List.append_assoc], visible⟩

theorem digit_visible {c : Char} (digit : c.isDigit = true) : isSpace c = false := by
  simp only [Char.isDigit, Bool.and_eq_true, decide_eq_true_eq, UInt32.le_iff_toNat_le] at digit
  have low : 48 ≤ c.toNat := digit.1
  have high : c.toNat ≤ 57 := digit.2
  simp only [isSpace, Bool.or_eq_false_iff, Bool.and_eq_false_iff, decide_eq_false_iff_not,
    beq_eq_false_iff_ne]
  omega

theorem closed_render {value : Value} (scalar : isScalarValue value = true) :
    Closed ((renderValue rt value).toList ++ ['\n']) := by
  cases value with
  | boolean value =>
    cases value
    · exact ⟨['f', 'a', 'l', 's'], 'e', by simp [renderValue], by decide⟩
    · exact ⟨['t', 'r', 'u'], 'e', by simp [renderValue], by decide⟩
  | integer value =>
    have digits := isDigit_decimalDigits value.natAbs
    cases ends : (decimalDigits value.natAbs).getLast? with
    | none => exact absurd (List.getLast?_eq_none_iff.mp ends) (decimalDigits_ne_nil _)
    | some c =>
      obtain ⟨front, whole⟩ := List.getLast?_eq_some_iff.mp ends
      have visible : isSpace c = false := digit_visible (digits c (by simp [whole]))
      have written : (renderValue rt (.integer value)).toList = (toString value).toList := rfl
      rw [written, toList_toString_int, whole]
      split
      · exact ⟨front, c, by simp, visible⟩
      · exact ⟨'-' :: front, c, by simp, visible⟩
  | string text =>
    refine ⟨'"' :: text.toList, '"', ?_, by decide⟩
    simp [renderValue]
    rfl
  | _ => cases scalar

section Closing

variable {entries : Table} {more : Text}

theorem closed_entries (scalar : ∀ entry ∈ entries, isScalarValue entry.2 = true)
    (rest : more = [] ∨ Closed more) :
    (entries = [] ∧ more = []) ∨ Closed (entriesText rt entries more) := by
  induction entries with
  | nil => exact rest.imp (fun none => ⟨rfl, none⟩) id
  | cons entry entries ih =>
    obtain ⟨here, later⟩ := List.forall_mem_cons.mp scalar
    have whole : entriesText rt (entry :: entries) more =
        lineText rt entry (entriesText rt entries more) := rfl
    rw [whole]
    rcases ih later with ⟨rfl, rfl⟩ | closed
    · have line : lineText rt entry (entriesText rt [] []) =
          (entry.1.toList ++ [' ', '=', ' ']) ++ ((renderValue rt entry.2).toList ++ ['\n']) := by
        simp [lineText, entryText, entriesText]
      rw [line]
      exact .inr ((closed_render here).behind _)
    · rw [← List.nil_append (entriesText rt entries more), lineText_append]
      exact .inr (closed.behind _)

theorem closed_header (name : String) (rest : more = [] ∨ Closed more) :
    Closed (headerText name more) := by
  rcases rest with rfl | closed
  · exact ⟨'[' :: name.toList, ']', by simp [headerText], by decide⟩
  · rw [← List.nil_append more, headerText_append]
    exact closed.behind _

end Closing

theorem closed_later {tables : List (String × Table)}
    (scalar : ∀ table ∈ tables, ∀ entry ∈ table.2, isScalarValue entry.2 = true) :
    tables = [] ∨ Closed (laterText rt tables) ∧ Closed (tablesText rt tables) := by
  induction tables with
  | nil => exact .inl rfl
  | cons table tables ih =>
    obtain ⟨here, later⟩ := List.forall_mem_cons.mp scalar
    have rest : laterText rt tables = [] ∨ Closed (laterText rt tables) := by
      rcases ih later with rfl | ⟨closed, -⟩
      · exact .inl rfl
      · exact .inr closed
    have inner : entriesText rt table.2 (laterText rt tables) = [] ∨
        Closed (entriesText rt table.2 (laterText rt tables)) := by
      rcases closed_entries here rest with ⟨none, empty⟩ | closed
      · exact .inl (by rw [none, empty]; rfl)
      · exact .inr closed
    have closed := closed_header table.1 inner
    exact .inr ⟨closed.behind ['\n'], closed⟩

section Parts

variable {mapping : Mapping}

theorem mem_scalars {entry : String × Value} :
    entry ∈ mapping.scalars ↔ entry ∈ mapping.data ∧ isScalarValue entry.2 = true := by
  rw [Mapping.scalars, List.mem_filter]
  constructor
  · rintro ⟨member, single⟩
    refine ⟨member, ?_⟩
    rcases mapping.shallow entry member with scalar | ⟨entries, table, -⟩
    · exact scalar
    · simp [table, isMapping] at single
  · rintro ⟨member, scalar⟩
    refine ⟨member, ?_⟩
    cases shape : entry.2 with
    | table entries => simp [shape, isScalarValue] at scalar
    | _ => rfl

theorem mem_tables {name : String} {entries : Table} :
    (name, entries) ∈ mapping.tables ↔ (name, Value.table entries) ∈ mapping.data := by
  rw [Mapping.tables, List.mem_filterMap]
  constructor
  · rintro ⟨⟨other, value⟩, member, found⟩
    cases value with
    | table entries =>
      cases found
      exact member
    | _ => cases found
  · exact fun member => ⟨_, member, rfl⟩

theorem scalars_of_table {name : String} {entries : Table} (member : (name, entries) ∈ mapping.tables) :
    Scalars entries := by
  rcases mapping.shallow _ (mem_tables.mp member) with scalar | ⟨inner, same, scalars⟩
  · cases scalar
  · cases same
    exact scalars

theorem bare_visible {c : Char} (bare : isBareKeyChar c = true) : isSpace c = false := by
  have range : 45 ≤ c.toNat ∧ c.toNat ≤ 122 := by
    have parts : isBareKeyChar c = ((decide (65 ≤ c.val ∧ c.val ≤ 90) || (97 ≤ c.val && c.val ≤ 122) ||
        (48 ≤ c.val && c.val ≤ 57)) || c = '-' || c = '_') := rfl
    simp only [parts, Bool.or_eq_true, Bool.and_eq_true, decide_eq_true_eq,
      UInt32.le_iff_toNat_le] at bare
    rcases bare with (((⟨low, high⟩ | ⟨low, high⟩) | ⟨low, high⟩) | rfl) | rfl
    · exact ⟨Nat.le_trans (by decide) low, Nat.le_trans high (by decide)⟩
    · exact ⟨Nat.le_trans (by decide) low, Nat.le_trans high (by decide)⟩
    · exact ⟨Nat.le_trans (by decide) low, Nat.le_trans high (by decide)⟩
    · decide
    · decide
  simp only [isSpace, Bool.or_eq_false_iff, Bool.and_eq_false_iff, decide_eq_false_iff_not,
    beq_eq_false_iff_ne]
  omega

theorem head_tables {c : Char} {tables : List (String × Table)}
    (starts : c ∈ (tablesText rt tables).head?) : c = '[' := by
  cases tables with
  | nil => cases starts
  | cons table tables => exact (Option.some.inj starts).symm

-- The lines of a table start with a key, and otherwise as what follows.
theorem head_entries {c : Char} {entries : Table} {more : Text}
    (bare : ∀ entry ∈ entries, IsBareKey entry.1)
    (starts : c ∈ (entriesText rt entries more).head?) :
    isBareKeyChar c = true ∨ entries = [] ∧ c ∈ more.head? := by
  cases entries with
  | nil => exact .inr ⟨rfl, starts⟩
  | cons entry entries =>
    obtain ⟨first, others, chars, here⟩ := (bare entry List.mem_cons_self).cons
    have whole : entriesText rt (entry :: entries) more =
        entry.1.toList ++ ' ' :: '=' :: ' ' ::
          ((renderValue rt entry.2).toList ++ '\n' :: entriesText rt entries more) := rfl
    rw [whole, chars] at starts
    obtain rfl : first = c := Option.some.inj starts
    exact .inl here

theorem strip_closed {front blanks : Text} {c : Char} (visible : isSpace c = false)
    (starts : ∀ d ∈ (front ++ [c]).head?, isSpace d = false)
    (spaces : ∀ d ∈ blanks, isSpace d = true) :
    strip (front ++ [c] ++ blanks) = front ++ [c] := by
  have ahead : (front ++ [c] ++ blanks).dropWhile isSpace = front ++ [c] ++ blanks := by
    cases front with
    | nil => exact List.dropWhile_cons_of_neg (by simp [visible])
    | cons d front => exact List.dropWhile_cons_of_neg (by simp [starts d rfl])
  have behind : (front ++ [c] ++ blanks).reverse = blanks.reverse ++ c :: front.reverse := by simp
  rw [strip, stripBy, ahead, behind,
    List.dropWhile_append_of_pos (fun d member => spaces d (List.mem_reverse.mp member)),
    List.dropWhile_cons_of_neg (by simp [visible])]
  simp

theorem emitToml_empty : (emitToml rt []).toList = ['\n'] := by
  have none : (String.intercalate "\n" []).toList = [] := by
    rw [String.intercalate_nil, String.toList_empty]
  have lines : emitToml rt [] =
      String.ofList (strip (String.intercalate "\n" []).toList) ++ "\n" := rfl
  rw [lines, none, String.toList_append, String.toList_ofList]
  simp [strip, stripBy]

-- What `_emit_toml` writes.
theorem emitToml_text (some_data : mapping.data ≠ []) :
    (emitToml rt mapping.data).toList = mapping.text rt := by
  have scalar : ∀ entry ∈ mapping.scalars, isScalarValue entry.2 = true :=
    fun entry member => (mem_scalars.mp member).2
  have tabled : ∀ table ∈ mapping.tables, ∀ entry ∈ table.2, isScalarValue entry.2 = true :=
    fun table member => (scalars_of_table member).scalar
  have bare : ∀ entry ∈ mapping.scalars, IsBareKey entry.1 :=
    fun entry member => mapping.bare entry (mem_scalars.mp member).1
  have some_part : mapping.scalars ≠ [] ∨ mapping.tables ≠ [] := by
    obtain ⟨entry, member⟩ := List.exists_mem_of_ne_nil _ some_data
    rcases mapping.shallow entry member with scalar | ⟨entries, same, -⟩
    · exact .inl (List.ne_nil_of_mem (mem_scalars.mpr ⟨member, scalar⟩))
    · have listed : (entry.1, Value.table entries) ∈ mapping.data := by rwa [← same]
      exact .inr (List.ne_nil_of_mem (mem_tables.mpr listed))
  have lines := @linesText_tables rt mapping.data
  generalize written : entryLines rt mapping.scalars ++ mapping.data.flatMap (tableLines rt) = all
  have emitted : (emitToml rt mapping.data).toList =
      strip ("\n".intercalate all).toList ++ ['\n'] := by
    rw [← written, emitToml, String.toList_append, String.toList_ofList]
    rfl
  have all_lines : linesText all =
      entriesText rt mapping.scalars (linesText (mapping.data.flatMap (tableLines rt))) := by
    rw [← written, linesText_append, linesText_entries]
  -- the last empty line goes with `strip`, and the line end that is added ends the last line
  obtain ⟨blanks, joined, spaces⟩ : ∃ blanks, linesText all = mapping.text rt ++ blanks ∧
      (blanks = [] ∨ blanks = ['\n']) := by
    rw [all_lines, Mapping.text]
    rw [← Mapping.tables] at lines
    cases tables : mapping.tables with
    | nil =>
      rw [tables] at lines
      have none : linesText (mapping.data.flatMap (tableLines rt)) = [] := (List.cons.inj lines).2
      exact ⟨[], by rw [none]; simp [tablesText, laterText], .inl rfl⟩
    | cons table rest =>
      rw [tables] at lines
      have some_lines : linesText (mapping.data.flatMap (tableLines rt)) =
          tablesText rt (table :: rest) ++ ['\n'] := (List.cons.inj lines).2
      exact ⟨['\n'], by rw [some_lines, entriesText_append], .inr rfl⟩
  have closed : Closed (mapping.text rt) := by
    have rest : tablesText rt mapping.tables = [] ∨ Closed (tablesText rt mapping.tables) := by
      rcases @closed_later rt _ tabled with none | closed
      · exact .inl (by rw [none]; rfl)
      · exact .inr closed.2
    rcases closed_entries scalar rest with ⟨none, empty⟩ | closed
    · rcases @closed_later rt _ tabled with no_tables | closed
      · rcases some_part with some_scalars | some_tables
        · exact absurd none some_scalars
        · exact absurd no_tables some_tables
      · rw [Mapping.text, none]
        exact closed.2
    · exact closed
  obtain ⟨front, c, text, visible⟩ := closed
  have some_lines : all ≠ [] := by
    rintro rfl
    rw [text] at joined
    simp [linesText] at joined
  have whole := intercalate_lines some_lines
  rw [joined, text] at whole
  have starts : ∀ d ∈ (front ++ [c]).head?, isSpace d = false := by
    intro d first
    have first : d ∈ (mapping.text rt).head? := by
      rw [text]
      cases front with
      | nil => exact first
      | cons e front => exact first
    rcases head_entries bare first with bare | ⟨-, bracket⟩
    · exact bare_visible bare
    · rw [head_tables bracket]
      decide
  have stripped : strip ("\n".intercalate all).toList = front ++ [c] := by
    rcases spaces with rfl | rfl
    · have same : ("\n".intercalate all).toList = front ++ [c] ++ [] :=
        List.append_cancel_right (whole.trans (by simp))
      rw [same]
      exact strip_closed visible starts (by simp)
    · have same : ("\n".intercalate all).toList = front ++ [c] ++ ['\n'] :=
        List.append_cancel_right (whole.trans (by simp))
      rw [same]
      exact strip_closed visible starts (by simp [isSpace])
  rw [emitted, stripped, text]
  simp

end Parts

end VmDeploy.Setup
