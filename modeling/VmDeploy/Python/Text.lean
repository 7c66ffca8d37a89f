import Mathlib.Data.List.Basic
import Mathlib.Data.List.TakeWhile

/-! The string methods of Python that the package uses to read tool output.
Text is a list of characters; the definitions follow the language reference. -/

set_option autoImplicit false

namespace Python

abbrev Text := List Char

-- With `rfl` a literal is taken apart as it is written, and its encoding is not decoded.
theorem toList_literal {literal : String} {text : Text} (same : literal = String.ofList text) :
    literal.toList = text := by
  rw [same, String.toList_ofList]

/-- `str.isspace` of one character: Unicode white space and the four separators. -/
def isSpace (c : Char) : Bool :=
  let n := c.toNat
  (9 ≤ n && n ≤ 13) || (28 ≤ n && n ≤ 32) || n == 0x85 || n == 0xa0 || n == 0x1680 ||
    (0x2000 ≤ n && n ≤ 0x200a) || n == 0x2028 || n == 0x2029 || n == 0x202f ||
    n == 0x205f || n == 0x3000

/-- The line boundaries of `str.splitlines`. -/
def isLineBreak (c : Char) : Bool :=
  let n := c.toNat
  (10 ≤ n && n ≤ 13) || (28 ≤ n && n ≤ 30) || n == 0x85 || n == 0x2028 || n == 0x2029

/-- `text.strip(chars)` for a set of characters. -/
def stripBy (p : Char → Bool) (text : Text) : Text :=
  ((text.dropWhile p).reverse.dropWhile p).reverse

/-- `text.strip()` -/
def strip (text : Text) : Text :=
  stripBy isSpace text

theorem mem_strip {c : Char} {text : Text} (member : c ∈ strip text) : c ∈ text := by
  rw [strip, stripBy, List.mem_reverse] at member
  have first := List.mem_reverse.mp ((List.dropWhile_suffix _).subset member)
  exact (List.dropWhile_suffix _).subset first

theorem strip_visible {text : Text} (visible : ∀ c ∈ text, isSpace c = false) :
    strip text = text := by
  have keep : ∀ part : Text, (∀ c ∈ part, isSpace c = false) → part.dropWhile isSpace = part := by
    intro part none
    cases part with
    | nil => rfl
    | cons c rest => rw [List.dropWhile_cons_of_neg (by simp [none c List.mem_cons_self])]
  rw [strip, stripBy, keep text visible, keep _ (fun c member => visible c (List.mem_reverse.mp member)),
    List.reverse_reverse]

/-- `c.lower()` for the characters whose lower case has an ASCII letter: those letters,
the dotted capital I and the Kelvin sign. -/
def lowerChar (c : Char) : Text :=
  if c.toNat = 0x130 then ['i', Char.ofNat 0x307]
  else if c.toNat = 0x212a then ['k']
  else [c.toLower]

/-- `text.lower()` as far as the package compares it, which is with ASCII text. -/
def lower (text : Text) : Text :=
  text.flatMap lowerChar

/-- `text.splitlines()`; a carriage return and line feed count as one break. -/
def splitLinesFrom (line : Text) : Text → List Text
  | [] => if line.isEmpty then [] else [line]
  | '\r' :: '\n' :: rest => line :: splitLinesFrom [] rest
  | c :: rest =>
      if isLineBreak c then line :: splitLinesFrom [] rest else splitLinesFrom (line ++ [c]) rest

def splitLines (text : Text) : List Text :=
  splitLinesFrom [] text

/-- The lines that have ended, and the text after the last line break. -/
def cutLinesFrom (line : Text) : Text → List Text × Text
  | [] => ([], line)
  | '\r' :: '\n' :: rest => (line :: (cutLinesFrom [] rest).1, (cutLinesFrom [] rest).2)
  | c :: rest =>
      if isLineBreak c then (line :: (cutLinesFrom [] rest).1, (cutLinesFrom [] rest).2)
      else cutLinesFrom (line ++ [c]) rest

theorem splitLinesFrom_eq (line text : Text) :
    splitLinesFrom line text = (cutLinesFrom line text).1 ++
      if (cutLinesFrom line text).2.isEmpty then [] else [(cutLinesFrom line text).2] := by
  fun_induction cutLinesFrom line text with
  | case1 line => simp [splitLinesFrom]
  | case2 line rest ih => simp [splitLinesFrom, ih]
  | case3 line c rest other breaks ih => simp [splitLinesFrom, breaks, ih]
  | case4 line c rest other same ih => simp [splitLinesFrom, same, ih]

theorem splitLinesFrom_terminated {added : Text} (plain : ∀ c ∈ added, isLineBreak c = false)
    (line : Text) : splitLinesFrom line (added ++ ['\n']) = [line ++ added] := by
  induction added generalizing line with
  | nil => simp [splitLinesFrom, isLineBreak]
  | cons c rest ih => 
    have same := plain c List.mem_cons_self
    have other : c ≠ '\r' := by
      rintro rfl
      cases same
    rw [List.cons_append, splitLinesFrom]
    · simp [same, ih (fun d member => plain d (List.mem_cons_of_mem _ member))]
    · intro rest is_return
      exact absurd is_return other

-- A line behind a text ends the unfinished line of the text.
theorem splitLinesFrom_append (text : Text) {added : Text} (some_text : added ≠ [])
    (plain : ∀ c ∈ added, isLineBreak c = false) (line : Text) :
    splitLinesFrom line (text ++ (added ++ ['\n'])) =
      (cutLinesFrom line text).1 ++ [(cutLinesFrom line text).2 ++ added] := by
  have apart : ∀ {c rest}, (∀ later, c = '\r' → rest = '\n' :: later → False) →
      ∀ later, c = '\r' → rest ++ (added ++ ['\n']) = '\n' :: later → False := by
    intro c rest other later is_return same
    cases rest with
    | nil =>
      obtain ⟨d, after, rfl⟩ := List.exists_cons_of_ne_nil some_text
      obtain rfl : d = '\n' := (List.cons.inj same).1
      cases plain '\n' List.mem_cons_self
    | cons d after => exact other after is_return (by rw [(List.cons.inj same).1])
  fun_induction cutLinesFrom line text with
  | case1 line => simpa using splitLinesFrom_terminated plain line
  | case2 line rest ih => simp [splitLinesFrom, ih]
  | case3 line c rest other breaks ih =>
    rw [List.cons_append, splitLinesFrom]
    · simp [breaks, ih]
    · exact apart other
  | case4 line c rest other same ih =>
    rw [List.cons_append, splitLinesFrom]
    · simp [same, ih]
    · exact apart other

/-- `text.removeprefix(prefix)` when the prefix is there. -/
def afterPrefix? : (start text : Text) → Option Text
  | [], text => some text
  | _ :: _, [] => none
  | c :: start, d :: text => if c = d then afterPrefix? start text else none

theorem afterPrefix?_eq_some {start text rest : Text} :
    afterPrefix? start text = some rest ↔ text = start ++ rest := by
  induction start generalizing text with
  | nil => simp [afterPrefix?]
  | cons c start ih =>
    cases text with
    | nil => simp [afterPrefix?]
    | cons d text =>
      by_cases same : c = d
      · simp [afterPrefix?, same, ih]
      · simp [afterPrefix?, same, Ne.symm same]

/-- `part in text` -/
def containsText (part : Text) : Text → Bool
  | [] => part.isEmpty
  | c :: rest => (afterPrefix? part (c :: rest)).isSome || containsText part rest

theorem containsText_iff {part text : Text} : containsText part text = true ↔ part <:+: text := by
  induction text with
  | nil => simp [containsText]
  | cons c rest ih =>
    have starts : (afterPrefix? part (c :: rest)).isSome = true ↔ part <+: c :: rest := by
      rw [Option.isSome_iff_exists]
      exact exists_congr fun after => afterPrefix?_eq_some.trans eq_comm
    rw [containsText, Bool.or_eq_true, starts, ih, List.infix_cons_iff]

/-- `text.split()`: maximal runs of characters that are not white space. -/
def splitWordsFrom (word : Text) : Text → List Text
  | [] => if word.isEmpty then [] else [word]
  | c :: rest =>
      if isSpace c then
        if word.isEmpty then splitWordsFrom [] rest else word :: splitWordsFrom [] rest
      else splitWordsFrom (word ++ [c]) rest

def splitWords (text : Text) : List Text :=
  splitWordsFrom [] text

theorem splitWordsFrom_eq_nil {word text : Text} (none : splitWordsFrom word text = []) :
    word = [] ∧ ∀ c ∈ text, isSpace c = true := by
  induction text generalizing word with
  | nil =>
    cases word with
    | nil => exact ⟨rfl, by simp⟩
    | cons c word => cases none
  | cons c rest ih =>
    rw [splitWordsFrom] at none
    cases space : isSpace c with
    | true =>
      cases word with
      | nil => simpa [space] using (ih (by simpa [space] using none)).2
      | cons d word => simp [space] at none
    | false =>
      have longer : word ++ [c] = [] := (ih (by simpa [space] using none)).1
      exact nomatch (List.append_eq_nil_iff.mp longer).2

-- Text without words is white space.
theorem splitWords_eq_nil {text : Text} (none : splitWords text = []) :
    ∀ c ∈ text, isSpace c = true :=
  (splitWordsFrom_eq_nil none).2

/-- A pattern that ends in `$`, which also matches in front of a last line feed. -/
def matchesToEnd (pattern : Text → Bool) (text : Text) : Bool :=
  pattern text || (text.getLast? = some '\n' && pattern text.dropLast)

/-- The zeros of the decimal digits that `\d` matches. -/
def decimalZeros : List Nat :=
  [0x30, 0x660, 0x6f0, 0x7c0, 0x966, 0x9e6, 0xa66, 0xae6, 0xb66, 0xbe6, 0xc66, 0xce6, 0xd66, 0xde6,
    0xe50, 0xed0, 0xf20, 0x1040, 0x1090, 0x17e0, 0x1810, 0x1946, 0x19d0, 0x1a80, 0x1a90, 0x1b50,
    0x1bb0, 0x1c40, 0x1c50, 0xa620, 0xa8d0, 0xa900, 0xa9d0, 0xa9f0, 0xaa50, 0xabf0, 0xff10, 0x104a0,
    0x10d30, 0x11066, 0x110f0, 0x11136, 0x111d0, 0x112f0, 0x11450, 0x114d0, 0x11650, 0x116c0,
    0x11730, 0x118e0, 0x11950, 0x11c50, 0x11d50, 0x11da0, 0x16a60, 0x16ac0, 0x16b50, 0x1d7ce,
    0x1d7d8, 0x1d7e2, 0x1d7ec, 0x1d7f6, 0x1e140, 0x1e2f0, 0x1e950, 0x1fbf0]

def decimalValue (c : Char) : Option Nat :=
  (decimalZeros.find? fun first => first ≤ c.toNat && c.toNat < first + 10).map (c.toNat - ·)

def isDecimal (c : Char) : Bool :=
  (decimalValue c).isSome

def decimalNumber (digits : Text) : Nat :=
  digits.foldl (fun number c => 10 * number + (decimalValue c).getD 0) 0

/-- The digits are not more than the interpreter converts, which may be any number of them. -/
def withinLimit (digitLimit : Option Nat) (digits : Text) : Bool :=
  digitLimit.all (digits.length ≤ ·)

/-- `int(digits)`, with the text of the `ValueError`. -/
def intOf (digitLimit : Option Nat) (digits : Text) : Except String Nat :=
  if withinLimit digitLimit digits then .ok (decimalNumber digits)
  else .error (s!"Exceeds the limit ({digitLimit.getD 0} digits) for integer string conversion: " ++
    s!"value has {digits.length} digits; " ++
    "use sys.set_int_max_str_digits() to increase the limit")

/-- A longest run of at least one character, and what follows it. -/
def someOf (p : Char → Bool) (text : Text) : Option (Text × Text) :=
  if text.takeWhile p = [] then none else some (text.takeWhile p, text.dropWhile p)

/-- The lines between line feeds, which are what `^`, `.` and `$` see in `re.MULTILINE`. -/
def patternLines (text : Text) : List Text :=
  text.splitOn '\n'

theorem someOf_eq_some {p : Char → Bool} {text run rest : Text}
    (read : someOf p text = some (run, rest)) :
    text = run ++ rest ∧ run ≠ [] ∧ ∀ c ∈ run, p c = true := by
  unfold someOf at read
  split_ifs at read with empty
  cases read
  exact ⟨(List.takeWhile_append_dropWhile).symm, empty, fun c => List.mem_takeWhile_imp⟩

theorem someOf_append {p : Char → Bool} {run : Text} (some_run : run ≠ [])
    (all : ∀ c ∈ run, p c = true) {stop : Char} (stops : p stop = false) (rest : Text) :
    someOf p (run ++ stop :: rest) = some (run, stop :: rest) := by
  have taken : (run ++ stop :: rest).takeWhile p = run := by
    rw [List.takeWhile_append_of_pos all, List.takeWhile_cons_of_neg (by simp [stops]),
      List.append_nil]
  have dropped : (run ++ stop :: rest).dropWhile p = stop :: rest := by
    rw [List.dropWhile_append_of_pos all, List.dropWhile_cons_of_neg (by simp [stops])]
  rw [someOf, taken, dropped, if_neg some_run]

theorem decimalValue_digitChar {digit : Nat} (small : digit < 10) :
    decimalValue digit.digitChar = some digit := by
  have each : ∀ digit : Fin 10, decimalValue digit.val.digitChar = some digit.val := by
    decide
  exact each ⟨digit, small⟩

theorem digits_decimal (n : Nat) : ∀ c ∈ (toString n).toList, isDecimal c = true := by
  induction n using Nat.strongRecOn with
  | ind n ih =>
    rw [Nat.toString_eq_ofList_toDigits, String.toList_ofList, Nat.toDigits_eq_if (by decide)]
    split
    · next small => simp [isDecimal, decimalValue_digitChar small]
    · next large =>
      intro c member
      rcases List.mem_append.mp member with front | last
      · refine ih (n / 10) (by omega) c ?_
        rwa [Nat.toString_eq_ofList_toDigits, String.toList_ofList]
      · rw [List.mem_singleton.mp last, isDecimal,
          decimalValue_digitChar (Nat.mod_lt _ (by decide))]
        rfl

theorem digits_ne_nil (n : Nat) : (toString n).toList ≠ [] := by
  rw [Nat.toString_eq_ofList_toDigits, String.toList_ofList]
  exact Nat.toDigits_ne_nil

theorem decimalNumber_digits (n : Nat) : decimalNumber (toString n).toList = n := by
  induction n using Nat.strongRecOn with
  | ind n ih =>
    rw [Nat.toString_eq_ofList_toDigits, String.toList_ofList, Nat.toDigits_eq_if (by decide)]
    split
    · next small => simp [decimalNumber, decimalValue_digitChar small]
    · next large =>
      have front := ih (n / 10) (by omega)
      rw [Nat.toString_eq_ofList_toDigits, String.toList_ofList, decimalNumber] at front
      rw [decimalNumber, List.foldl_append, front, List.foldl_cons, List.foldl_nil,
        decimalValue_digitChar (Nat.mod_lt _ (by decide)), Option.getD_some]
      omega

theorem patternLines_terminated {lines : List Text} (whole : ∀ line ∈ lines, '\n' ∉ line) :
    patternLines (lines.flatMap (· ++ ['\n'])) = lines ++ [[]] := by
  induction lines with
  | nil => rfl
  | cons line rest ih =>
    rw [patternLines, List.flatMap_cons, List.append_assoc, List.singleton_append,
      List.splitOn_append_cons_self_of_not_mem (whole line List.mem_cons_self)]
    exact congrArg (line :: ·) (ih fun other member => whole other (List.mem_cons_of_mem _ member))

/-- The controls, separators, format characters and private or reserved code points that no
release of Unicode makes printable. -/
def unprintable : List (Nat × Nat) :=
  [(0x0, 0x1f), (0x7f, 0xa0), (0xad, 0xad), (0x600, 0x605), (0x61c, 0x61c), (0x6dd, 0x6dd),
    (0x70f, 0x70f), (0x890, 0x891), (0x8e2, 0x8e2), (0x1680, 0x1680), (0x180e, 0x180e),
    (0x2000, 0x200f), (0x2028, 0x202f), (0x205f, 0x206f), (0x3000, 0x3000), (0xe000, 0xf8ff),
    (0xfdd0, 0xfdef), (0xfeff, 0xfeff), (0xfff9, 0xfffb), (0x110bd, 0x110bd), (0x110cd, 0x110cd),
    (0x13430, 0x1343f), (0x1bca0, 0x1bca3), (0x1d173, 0x1d17a), (0xe0001, 0xe0001),
    (0xe0020, 0xe007f), (0xf0000, 0x10ffff)]

/-- `c.isprintable()`. A code point that is not assigned yet counts as printable. -/
def isPrintable (c : Char) : Bool :=
  c.toNat % 0x10000 < 0xfffe && unprintable.all fun range => c.toNat < range.1 || range.2 < c.toNat

def hexDigits : (count n : Nat) → Text
  | 0, _ => []
  | count + 1, n => hexDigits count (n / 16) ++ [Nat.digitChar (n % 16)]

def reprChar (quote c : Char) : Text :=
  if c = quote || c = '\\' then ['\\', c]
  else if c = '\n' then ['\\', 'n']
  else if c = '\r' then ['\\', 'r']
  else if c = '\t' then ['\\', 't']
  else if isPrintable c then [c]
  else if c.toNat < 0x100 then '\\' :: 'x' :: hexDigits 2 c.toNat
  else if c.toNat < 0x10000 then '\\' :: 'u' :: hexDigits 4 c.toNat
  else '\\' :: 'U' :: hexDigits 8 c.toNat

/-- `repr(text)`: single quotes unless only double quotes avoid an escape. -/
def reprText (text : Text) : Text :=
  let quote := if '\'' ∈ text ∧ '"' ∉ text then '"' else '\''
  quote :: text.flatMap (reprChar quote) ++ [quote]

def reprList (texts : List Text) : Text :=
  '[' :: (", ".toList).intercalate (texts.map reprText) ++ [']']

end Python
