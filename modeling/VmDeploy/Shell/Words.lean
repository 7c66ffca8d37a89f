import Mathlib.Data.List.Basic

/-! How a POSIX shell cuts its input into words and operators, one character at a time.

A character of a word is literal if it was quoted, part of an expansion, or plain: plain
characters may still be subject to pathname and tilde expansion. Operators are kept
character by character. -/

set_option autoImplicit false

namespace Shell

inductive Fate where
  | literal
  | plain
  | expands
  deriving DecidableEq, Repr

structure Piece where
  char : Char
  fate : Fate
  deriving DecidableEq, Repr

inductive Token where
  | word (pieces : List Piece)
  | operator (char : Char)
  deriving DecidableEq, Repr

/-- What has been opened and not closed yet. -/
inductive Nest where
  | single
  | double
  | parenthesis
  | brace
  | backquote
  deriving DecidableEq, Repr

def Nest.expands : Nest → Bool
  | .single | .double => false
  | .parenthesis | .brace | .backquote => true

/-- The state of the reader; `dollar` is set right behind a dollar sign that expands. -/
structure Reader where
  nests : List Nest
  escaped : Bool
  dollar : Bool
  comment : Bool
  word : Option (List Piece)
  tokens : List Token
  deriving DecidableEq, Repr

namespace Reader

def start : Reader :=
  ⟨[], false, false, false, none, []⟩

variable (reader : Reader)

def add (c : Char) (fate : Fate) : Reader :=
  let within := if reader.nests.any Nest.expands then .expands else fate
  { reader with word := some (reader.word.getD [] ++ [⟨c, within⟩]), dollar := false }

def enter (nest : Nest) : Reader :=
  { reader with nests := nest :: reader.nests, word := some (reader.word.getD []), dollar := false }

def leave : Reader :=
  { reader with nests := reader.nests.tail, dollar := false }

def escape : Reader :=
  { reader with escaped := true, word := some (reader.word.getD []), dollar := false }

def endWord : Reader :=
  match reader.word with
  | none => { reader with dollar := false }
  | some pieces =>
      { reader with word := none, tokens := reader.tokens ++ [.word pieces], dollar := false }

def operate (c : Char) : Reader :=
  { reader.endWord with tokens := reader.endWord.tokens ++ [.operator c] }

def isBlank (c : Char) : Bool :=
  c = ' ' || c = '\t'

def isOperator (c : Char) : Bool :=
  c ∈ ['\n', '|', '&', ';', '<', '>', '(', ')']

/-- A dollar sign or a backquote, or what follows the dollar sign; otherwise `other`. -/
def expand (c : Char) (other : Reader) : Reader :=
  if reader.dollar ∧ c = '(' then (reader.enter .parenthesis).add c .expands
  else if reader.dollar ∧ c = '{' then (reader.enter .brace).add c .expands
  else if c = '$' then { reader.add c .expands with dollar := true }
  else if c = '`' then (reader.enter .backquote).add c .expands
  else other

/-- Behind a backslash; in double quotes it only quotes the characters that are special there. -/
def stepEscaped (c : Char) : Reader :=
  let next := { reader with escaped := false }
  if c = '\n' then next
  else if reader.nests.head? = some .double ∧ c ∉ ['$', '`', '"', '\\'] then
    (next.add '\\' .literal).add c .literal
  else next.add c .literal

def stepPlain (c : Char) : Reader :=
  if c = '\\' then reader.escape
  else if c = '\'' then reader.enter .single
  else if c = '"' then reader.enter .double
  else if isBlank c then reader.endWord
  else if c = '#' ∧ reader.word = none then { reader with comment := true }
  else reader.expand c (if isOperator c then reader.operate c else reader.add c .plain)

def stepSingle (c : Char) : Reader :=
  if c = '\'' then reader.leave else reader.add c .literal

def stepDouble (c : Char) : Reader :=
  if c = '"' then reader.leave
  else if c = '\\' then reader.escape
  else reader.expand c (reader.add c .literal)

def stepNested (close c : Char) : Reader :=
  if c = close then (reader.add c .expands).leave
  else if c = '\\' then reader.escape
  else if c = '\'' then reader.enter .single
  else if c = '"' then reader.enter .double
  else if close = ')' ∧ c = '(' then (reader.enter .parenthesis).add c .expands
  else reader.expand c (reader.add c .expands)

def stepComment (c : Char) : Reader :=
  if c = '\n' then { reader with comment := false, tokens := reader.tokens ++ [.operator c] }
  else reader

/-- No input of a shell has a NUL in it. -/
def step (c : Char) : Option Reader :=
  if c = '\u0000' then none
  else if reader.escaped then some (reader.stepEscaped c)
  else if reader.comment then some (reader.stepComment c)
  else some <|
    match reader.nests with
    | [] => reader.stepPlain c
    | .single :: _ => reader.stepSingle c
    | .double :: _ => reader.stepDouble c
    | .parenthesis :: _ => reader.stepNested ')' c
    | .brace :: _ => reader.stepNested '}' c
    | .backquote :: _ => reader.stepNested '`' c

def read : Reader → List Char → Option Reader
  | reader, [] => some reader
  | reader, c :: rest => (reader.step c).bind fun next => next.read rest

/-- Nothing is open, and the next character begins a token. -/
structure Rests (reader : Reader) : Prop where
  nests : reader.nests = []
  escaped : reader.escaped = false
  comment : reader.comment = false
  word : reader.word = none

theorem read_append (reader : Reader) (first last : List Char) :
    reader.read (first ++ last) = (reader.read first).bind fun next => next.read last := by
  induction first generalizing reader with
  | nil => rfl
  | cons c rest ih =>
    simp only [List.cons_append, read]
    cases reader.step c with
    | none => rfl
    | some next => exact ih next

section After

variable (earlier : List Token)

def after : Reader :=
  { reader with tokens := earlier ++ reader.tokens }

theorem endWord_after : (reader.after earlier).endWord = reader.endWord.after earlier := by
  obtain ⟨nests, escaped, dollar, comment, word, tokens⟩ := reader
  cases word with
  | none => rfl
  | some pieces => simp [after, endWord]

theorem operate_after (c : Char) :
    (reader.after earlier).operate c = (reader.operate c).after earlier := by
  rw [operate, endWord_after]
  simp [operate, after]

theorem expand_after (c : Char) (other : Reader) :
    (reader.after earlier).expand c (other.after earlier) = (reader.expand c other).after earlier := by
  simp only [expand, apply_ite (after · earlier)]
  rfl

theorem stepEscaped_after (c : Char) :
    (reader.after earlier).stepEscaped c = (reader.stepEscaped c).after earlier := by
  simp only [stepEscaped, apply_ite (after · earlier)]
  rfl

theorem stepPlain_after (c : Char) :
    (reader.after earlier).stepPlain c = (reader.stepPlain c).after earlier := by
  have others : (if isOperator c then (reader.after earlier).operate c
      else (reader.after earlier).add c .plain) =
      (if isOperator c then reader.operate c else reader.add c .plain).after earlier := by
    rw [operate_after, apply_ite (after · earlier)]
    rfl
  rw [stepPlain, others, expand_after, endWord_after]
  simp only [stepPlain, apply_ite (after · earlier)]
  rfl

theorem stepNested_after (close c : Char) :
    (reader.after earlier).stepNested close c = (reader.stepNested close c).after earlier := by
  have others : (reader.after earlier).add c .expands = (reader.add c .expands).after earlier := rfl
  simp only [stepNested, others, expand_after, apply_ite (after · earlier)]
  rfl

theorem stepDouble_after (c : Char) :
    (reader.after earlier).stepDouble c = (reader.stepDouble c).after earlier := by
  have others : (reader.after earlier).add c .literal = (reader.add c .literal).after earlier := rfl
  simp only [stepDouble, others, expand_after, apply_ite (after · earlier)]
  rfl

theorem stepSingle_after (c : Char) :
    (reader.after earlier).stepSingle c = (reader.stepSingle c).after earlier := by
  simp only [stepSingle, apply_ite (after · earlier)]
  rfl

theorem stepComment_after (c : Char) :
    (reader.after earlier).stepComment c = (reader.stepComment c).after earlier := by
  unfold stepComment
  split
  · simp [after]
  · rfl

theorem step_after (c : Char) :
    (reader.after earlier).step c = (reader.step c).map (·.after earlier) := by
  unfold step
  have nests : (reader.after earlier).nests = reader.nests := rfl
  have escaped : (reader.after earlier).escaped = reader.escaped := rfl
  have comment : (reader.after earlier).comment = reader.comment := rfl
  rw [nests, escaped, comment, stepEscaped_after, stepComment_after]
  split
  · rfl
  · split
    · rfl
    · split
      · rfl
      · split
        · rw [stepPlain_after]; rfl
        · rw [stepSingle_after]; rfl
        · rw [stepDouble_after]; rfl
        · rw [stepNested_after]; rfl
        · rw [stepNested_after]; rfl
        · rw [stepNested_after]; rfl

theorem read_after (text : List Char) :
    (reader.after earlier).read text = (reader.read text).map (·.after earlier) := by
  induction text generalizing reader with
  | nil => rfl
  | cons c rest ih =>
    simp only [read, step_after]
    cases reader.step c with
    | none => rfl
    | some next => exact ih next

end After

/-- A text in single quotes, with each of its own single quotes written outside of them. -/
def quoted (text : List Char) : List Char :=
  '\'' :: (text.flatMap fun c => if c = '\'' then ['\'', '\\', '\'', '\''] else [c]) ++ ['\'']

theorem read_body {text : List Char} (clean : '\u0000' ∉ text) (pieces : List Piece)
    (tokens : List Token) :
    Reader.read ⟨[.single], false, false, false, some pieces, tokens⟩
        (text.flatMap fun c => if c = '\'' then ['\'', '\\', '\'', '\''] else [c]) =
      some ⟨[.single], false, false, false, some (pieces ++ text.map (⟨·, .literal⟩)), tokens⟩ := by
  induction text generalizing pieces with
  | nil => simp [read]
  | cons c rest ih =>
    have later : '\u0000' ∉ rest := fun member => clean (List.mem_cons_of_mem c member)
    by_cases quote : c = '\''
    · subst quote
      have passed : Reader.read ⟨[.single], false, false, false, some pieces, tokens⟩
          ['\'', '\\', '\'', '\''] =
          some ⟨[.single], false, false, false, some (pieces ++ [⟨'\'', .literal⟩]), tokens⟩ := rfl
      rw [List.flatMap_cons, if_pos rfl, read_append, passed, Option.bind_some, ih later]
      simp
    · have visible : c ≠ '\u0000' := fun same => clean (same ▸ List.mem_cons_self)
      have passed : Reader.read ⟨[.single], false, false, false, some pieces, tokens⟩ [c] =
          some ⟨[.single], false, false, false, some (pieces ++ [⟨c, .literal⟩]), tokens⟩ := by
        simp [read, step, stepSingle, add, visible, quote, Nest.expands]
      rw [List.flatMap_cons, if_neg quote, read_append, passed, Option.bind_some, ih later]
      simp

theorem read_quoted {reader : Reader} (rests : reader.Rests) {text : List Char}
    (clean : '\u0000' ∉ text) :
    reader.read (quoted text) =
      some ⟨[], false, false, false, some (text.map (⟨·, .literal⟩)), reader.tokens⟩ := by
  obtain ⟨nests, escaped, dollar, comment, word, tokens⟩ := reader
  obtain ⟨rfl, rfl, rfl, rfl⟩ := rests
  have opened : Reader.read ⟨[], false, dollar, false, none, tokens⟩ ['\''] =
      some ⟨[.single], false, false, false, some [], tokens⟩ := rfl
  have closed : ∀ pieces, Reader.read ⟨[.single], false, false, false, some pieces, tokens⟩ ['\''] =
      some ⟨[], false, false, false, some pieces, tokens⟩ := fun _ => rfl
  rw [quoted, ← List.singleton_append, List.append_assoc, read_append, opened, Option.bind_some,
    read_append, read_body clean, Option.bind_some, List.nil_append, closed]

end Reader

def tokens (text : List Char) : Option (List Token) :=
  (Reader.start.read text).bind fun reader =>
    if reader.nests = [] ∧ reader.escaped = false then some reader.endWord.tokens else none

theorem finish_after (earlier : List Token) (read : Option Reader) :
    ((read.map (·.after earlier)).bind fun reader =>
        if reader.nests = [] ∧ reader.escaped = false then some reader.endWord.tokens else none) =
      (read.bind fun reader =>
        if reader.nests = [] ∧ reader.escaped = false then some reader.endWord.tokens
        else none).map (earlier ++ ·) := by
  cases read with
  | none => rfl
  | some reader =>
    have same : (reader.after earlier).endWord.tokens = earlier ++ reader.endWord.tokens := by
      rw [Reader.endWord_after]
      rfl
    have nests : (reader.after earlier).nests = reader.nests := rfl
    have escaped : (reader.after earlier).escaped = reader.escaped := rfl
    rw [Option.map_some, Option.bind_some, Option.bind_some, nests, escaped, same]
    split <;> rfl

-- A quoted text that stands between blanks is one word of its own characters.
theorem tokens_quoted {before after text : List Char} {ready : Reader}
    (reads : Reader.start.read before = some ready) (rests : ready.Rests)
    (clean : '\u0000' ∉ text)
    (separated : after = [] ∨ ∃ blank rest, after = blank :: rest ∧ Reader.isBlank blank = true) :
    tokens (before ++ Reader.quoted text ++ after) =
      (tokens after).map (ready.tokens ++ [.word (text.map (⟨·, .literal⟩))] ++ ·) := by
  let earlier := ready.tokens ++ [.word (text.map (⟨·, .literal⟩))]
  rw [tokens, Reader.read_append, Reader.read_append, reads, Option.bind_some,
    Reader.read_quoted rests clean, Option.bind_some]
  rcases separated with rfl | ⟨blank, rest, rfl, is_blank⟩
  · simp [Reader.read, Reader.endWord, tokens, Reader.start]
  · have visible : blank ≠ '\u0000' ∧ blank ≠ '\\' ∧ blank ≠ '\'' ∧ blank ≠ '"' := by
      refine ⟨?_, ?_, ?_, ?_⟩ <;> rintro rfl <;> exact absurd is_blank (by decide)
    have ended : ∀ word tokens, Reader.step ⟨[], false, false, false, word, tokens⟩ blank =
        some (Reader.endWord ⟨[], false, false, false, word, tokens⟩) := by
      intro word tokens
      simp [Reader.step, Reader.stepPlain, visible, is_blank]
    have first : Reader.read ⟨[], false, false, false, some (text.map (⟨·, .literal⟩)), ready.tokens⟩
        (blank :: rest) = (Reader.start.after earlier).read rest := by
      rw [Reader.read, ended]
      simp [Reader.endWord, Reader.after, Reader.start, earlier]
    have alone : Reader.start.read (blank :: rest) = Reader.start.read rest := by
      rw [Reader.read, Reader.start, ended]
      rfl
    rw [first, Reader.read_after, finish_after, tokens, alone]

end Shell
