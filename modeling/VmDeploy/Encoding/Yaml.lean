import Mathlib.Data.List.Basic
import Mathlib.Data.List.Count

/-! The part of YAML 1.2 with block mappings and sequences, plain scalars on one line
and single-quoted scalars on any number of lines.

A scanner reads one character at a time and leaves tokens with their columns; anything
outside this part is refused. -/

set_option autoImplicit false

namespace Yaml

abbrev Text := List Char

inductive Scalar where
  | plain (text : Text)
  | quoted (text : Text)
  deriving DecidableEq, Repr

inductive Token where
  | dash (column : Nat)
  | entry (column : Nat) (key : Text) (value : Option Scalar)
  | item (column : Nat) (value : Scalar)
  deriving DecidableEq, Repr

def Token.column : Token → Nat
  | .dash column | .entry column _ _ | .item column _ => column

/-- Inside a scalar: white space that may turn out to end its line, a quotation mark
that may be doubled, or line breaks being folded. -/
inductive Quoted where
  | text (decoded blanks : Text)
  | mark (decoded : Text)
  | folding (decoded : Text) (breaks column : Nat) (carriage : Bool)
  deriving DecidableEq, Repr

/-- A single line break is a space; of several, one is dropped. -/
def folded (decoded : Text) (breaks : Nat) : Text :=
  decoded ++ if breaks = 0 then [' '] else List.replicate breaks '\n'

def isBlank (c : Char) : Bool :=
  c = ' ' || c = '\t'

def isBreak (c : Char) : Bool :=
  c = '\n' || c = '\r'

def Quoted.read (decoded blanks : Text) (c : Char) : Option Quoted :=
  if c = '\'' then some (.mark (decoded ++ blanks))
  else if isBreak c then some (.folding decoded 0 0 (c = '\r'))
  else if isBlank c then some (.text decoded (blanks ++ [c]))
  else if c.toNat < 0x20 then none
  else some (.text (decoded ++ blanks ++ [c]) [])

/-- `indent` is what the lines after the first need. -/
def Quoted.step (indent : Nat) : Quoted → Char → Option Quoted
  | .text decoded blanks, c => read decoded blanks c
  | .mark decoded, c => if c = '\'' then some (.text (decoded ++ [c]) []) else none
  | .folding decoded breaks column carriage, c =>
      if c = '\n' && carriage then some (.folding decoded breaks 0 false)
      else if isBreak c then some (.folding decoded (breaks + 1) 0 (c = '\r'))
      else if c = ' ' then some (.folding decoded breaks (column + 1) false)
      else if column < indent then none
      else if c = '\t' then some (.folding decoded breaks column false)
      else read (folded decoded breaks) [] c

/-- What a scalar stands for when its closing mark comes next. -/
def Quoted.close (indent : Nat) (state : Quoted) : Option Text :=
  match state.step indent '\'' with
  | some (.mark decoded) => some decoded
  | _ => none

/-- Where a scalar stands. -/
inductive Place where
  | entry (column : Nat) (key : Text)
  | item (column : Nat)
  deriving DecidableEq, Repr

def Place.indent : Place → Nat
  | .entry column _ => column + 1
  | .item column => column - 1

def Place.token (value : Scalar) : Place → Token
  | .entry column key => .entry column key (some value)
  | .item column => .item column value

inductive Mode where
  | start (column : Nat)
  | comment
  | dash (column : Nat)
  | plain (column : Nat) (text : Text)
  | colon (column : Nat) (text : Text)
  | value (column : Nat) (key : Text)
  | plainValue (column : Nat) (key text : Text)
  | quoted (place : Place) (state : Quoted)
  | closed (place : Place) (text : Text)
  deriving DecidableEq, Repr

structure Scanner where
  tokens : List Token
  mode : Mode
  deriving DecidableEq, Repr

def Scanner.emit (scanner : Scanner) (token : Token) (mode : Mode) : Scanner :=
  ⟨scanner.tokens ++ [token], mode⟩

/-- Characters with which no plain scalar begins. -/
def isIndicator (c : Char) : Bool :=
  c ∈ [',', '[', ']', '{', '}', '&', '*', '!', '|', '>', '"', '%', '@', Char.ofNat 96, '?', ':']

def trimRight (text : Text) : Text :=
  (text.reverse.dropWhile isBlank).reverse

def step (scanner : Scanner) (c : Char) : Option Scanner :=
  let go (mode : Mode) : Option Scanner := some { scanner with mode := mode }
  match scanner.mode with
  | .start column =>
      if c = ' ' then go (.start (column + 1))
      else if c = '\n' then go (.start 0)
      else if c = '#' then go .comment
      else if c = '-' then go (.dash column)
      else if c = '\'' then go (.quoted (.item column) (.text [] []))
      else if isIndicator c || c.toNat < 0x20 then none
      else go (.plain column [c])
  | .comment => if c = '\n' then go (.start 0) else go .comment
  | .dash column =>
      if c = ' ' then some (scanner.emit (.dash column) (.start (column + 2)))
      else if c = '\n' then some (scanner.emit (.dash column) (.start 0))
      else none
  | .plain column text =>
      if c = ':' then go (.colon column text)
      else if c = '\n' then some (scanner.emit (.item column (.plain (trimRight text))) (.start 0))
      else if c = '#' && text.getLast?.any isBlank then
        some (scanner.emit (.item column (.plain (trimRight text))) .comment)
      else if c.toNat < 0x20 then none
      else go (.plain column (text ++ [c]))
  | .colon column text =>
      if c = ' ' then go (.value column (trimRight text))
      else if c = '\n' then some (scanner.emit (.entry column (trimRight text) none) (.start 0))
      else if c.toNat < 0x20 then none
      else go (.plain column (text ++ [':', c]))
  | .value column key =>
      if c = ' ' then go (.value column key)
      else if c = '\n' then some (scanner.emit (.entry column key none) (.start 0))
      else if c = '#' then some (scanner.emit (.entry column key none) .comment)
      else if c = '\'' then go (.quoted (.entry column key) (.text [] []))
      else if isIndicator c || c = '-' || c.toNat < 0x20 then none
      else go (.plainValue column key [c])
  | .plainValue column key text =>
      if c = '\n' then
        some (scanner.emit (.entry column key (some (.plain (trimRight text)))) (.start 0))
      else if c = '#' && text.getLast?.any isBlank then
        some (scanner.emit (.entry column key (some (.plain (trimRight text)))) .comment)
      else if c = ' ' && text.getLast? = some ':' then none
      else if c.toNat < 0x20 then none
      else go (.plainValue column key (text ++ [c]))
  | .quoted place state =>
      match state with
      | .mark decoded =>
          if c = '\'' then go (.quoted place (.text (decoded ++ [c]) []))
          else if c = ' ' then go (.closed place decoded)
          else if c = '\n' then some (scanner.emit (place.token (.quoted decoded)) (.start 0))
          else none
      | state => (state.step place.indent c).bind fun next => go (.quoted place next)
  | .closed place text =>
      if c = ' ' then go (.closed place text)
      else if c = '\n' then some (scanner.emit (place.token (.quoted text)) (.start 0))
      else if c = '#' then some (scanner.emit (place.token (.quoted text)) .comment)
      else none

def run (scanner : Scanner) (text : Text) : Option Scanner :=
  text.foldlM step scanner

/-- The tokens of a text whose last line is complete. -/
def scan (text : Text) : Option (List Token) :=
  match run ⟨[], .start 0⟩ text with
  | some ⟨tokens, .start _⟩ => some tokens
  | _ => none

inductive Node where
  | null
  | bool (value : Bool)
  | string (text : Text)
  | mapping (entries : List (Text × Node))
  | sequence (elements : List Node)

/-- The core schema, without its numbers. -/
def resolve : Scalar → Node
  | .quoted text => .string text
  | .plain text =>
      if text ∈ ["null".toList, "Null".toList, "NULL".toList, "~".toList] then .null
      else if text ∈ ["true".toList, "True".toList, "TRUE".toList] then .bool true
      else if text ∈ ["false".toList, "False".toList, "FALSE".toList] then .bool false
      else .string text

def deeper (column : Nat) (tokens : List Token) : Bool :=
  tokens.head?.any fun token => column < token.column

mutual

def block : Nat → List Token → Option (Node × List Token)
  | 0, _ => none
  | _ + 1, [] => none
  | _ + 1, .item _ value :: rest => some (resolve value, rest)
  | fuel + 1, .dash column :: rest =>
      (elements fuel column (.dash column :: rest)).map fun read => (.sequence read.1, read.2)
  | fuel + 1, .entry column key value :: rest =>
      (entries fuel column (.entry column key value :: rest)).map fun read =>
        (.mapping read.1, read.2)

def elements : Nat → Nat → List Token → Option (List Node × List Token)
  | 0, _, _ => none
  | fuel + 1, column, .dash here :: rest =>
      if here = column then do
        let (node, rest) ← if deeper column rest then block fuel rest else some (.null, rest)
        let (nodes, rest) ← elements fuel column rest
        some (node :: nodes, rest)
      else some ([], .dash here :: rest)
  | _ + 1, _, tokens => some ([], tokens)

def entries : Nat → Nat → List Token → Option (List (Text × Node) × List Token)
  | 0, _, _ => none
  | fuel + 1, column, .entry here key value :: rest =>
      if here = column then do
        let (node, rest) ← match value with
          | some scalar => some (resolve scalar, rest)
          | none => if deeper column rest then block fuel rest else some (.null, rest)
        let (others, rest) ← entries fuel column rest
        some ((key, node) :: others, rest)
      else some ([], .entry here key value :: rest)
  | _ + 1, _, tokens => some ([], tokens)

end

def tree (tokens : List Token) : Option Node :=
  match block (2 * tokens.length + 2) tokens with
  | some (node, []) => some node
  | _ => none

def load (text : Text) : Option Node :=
  (scan text).bind tree

def doubled (text : Text) : Text :=
  text.flatMap fun c => if c = '\'' then [c, c] else [c]

/-- One character of the quoted text, which a quotation mark writes twice. -/
def Quoted.feed (indent : Nat) (state : Quoted) (c : Char) : Option Quoted :=
  if c = '\'' then (state.step indent c).bind fun next => next.step indent c
  else state.step indent c

def decoded (indent : Nat) (text : Text) : Option Text :=
  (text.foldlM (Quoted.feed indent) (.text [] [])).bind (Quoted.close indent)

def Quoted.open : Quoted → Prop
  | .mark _ => False
  | _ => True

theorem read_cases {decoded blanks : Text} {c : Char} {next : Quoted}
    (reads : Quoted.read decoded blanks c = some next) :
    (c = '\'' ∧ next = .mark (decoded ++ blanks)) ∨
      (isBreak c = true ∧ next = .folding decoded 0 0 (c = '\r')) ∨
      (isBlank c = true ∧ next = .text decoded (blanks ++ [c])) ∨
      (c ≠ '\'' ∧ isBreak c = false ∧ isBlank c = false ∧ 0x20 ≤ c.toNat ∧
        next = .text (decoded ++ blanks ++ [c]) []) := by
  unfold Quoted.read at reads
  split_ifs at reads with mark ends blank control
  · exact .inl ⟨mark, (Option.some.inj reads).symm⟩
  · exact .inr (.inl ⟨ends, (Option.some.inj reads).symm⟩)
  · exact .inr (.inr (.inl ⟨blank, (Option.some.inj reads).symm⟩))
  · exact .inr (.inr (.inr ⟨mark, by simpa using ends, by simpa using blank,
      Nat.le_of_not_lt control, (Option.some.inj reads).symm⟩))

def Quoted.breaks : Quoted → Nat
  | .text decoded blanks => (decoded ++ blanks).countP isBreak
  | .mark decoded => decoded.countP isBreak
  | .folding decoded breaks _ _ => decoded.countP isBreak + breaks

theorem blank_not_break {c : Char} (blank : isBlank c = true) : isBreak c = false := by
  simp only [isBlank, Bool.or_eq_true, decide_eq_true_eq] at blank
  rcases blank with rfl | rfl <;> decide

theorem countP_folded (decoded : Text) (breaks : Nat) :
    (folded decoded breaks).countP isBreak = decoded.countP isBreak + breaks := by
  unfold folded
  split
  · next none => simp [none, isBreak]
  · rw [List.countP_append, List.countP_replicate, if_pos (by decide)]

theorem read_breaks {decoded blanks : Text} {c : Char} {next : Quoted}
    (reads : Quoted.read decoded blanks c = some next) :
    next.breaks ≤ (decoded ++ blanks).countP isBreak := by
  rcases read_cases reads with ⟨-, rfl⟩ | ⟨-, rfl⟩ | ⟨blank, rfl⟩ | ⟨-, visible, -, -, rfl⟩
  · exact Nat.le_refl _
  · simp [Quoted.breaks]
  · simp [Quoted.breaks, blank_not_break blank]
  · simp [Quoted.breaks, visible]

theorem step_breaks {indent : Nat} {state next : Quoted} {c : Char}
    (steps : state.step indent c = some next) :
    next.breaks ≤ state.breaks + if isBreak c then 1 else 0 := by
  cases state with
  | text decoded blanks => exact Nat.le_add_right_of_le (read_breaks steps)
  | mark decoded =>
    simp only [Quoted.step] at steps
    split at steps
    · next mark =>
      cases steps
      subst mark
      simp [Quoted.breaks, isBreak]
    · cases steps
  | folding decoded breaks column carriage =>
    simp only [Quoted.step] at steps
    split_ifs at steps with second ends space short tab
    · cases steps
      simp [Quoted.breaks]
    · cases steps
      simp [Quoted.breaks, ends, Nat.add_assoc]
    · cases steps
      simp [Quoted.breaks]
    · cases steps
      simp [Quoted.breaks]
    · have kept := read_breaks steps
      rw [List.append_nil, countP_folded] at kept
      exact Nat.le_add_right_of_le kept

theorem feed_breaks {indent : Nat} {state next : Quoted} {c : Char}
    (feeds : state.feed indent c = some next) :
    next.breaks ≤ state.breaks + if isBreak c then 1 else 0 := by
  unfold Quoted.feed at feeds
  split at feeds
  · next mark =>
    obtain ⟨middle, first, second⟩ := Option.bind_eq_some_iff.mp feeds
    have early := step_breaks first
    have late := step_breaks second
    have visible : isBreak c = false := by rw [mark]; decide
    simp only [visible, Bool.false_eq_true, if_false] at early late ⊢
    omega
  · exact step_breaks feeds

theorem feeds_breaks {indent : Nat} {state next : Quoted} {text : Text}
    (feeds : text.foldlM (Quoted.feed indent) state = some next) :
    next.breaks ≤ state.breaks + text.countP isBreak := by
  induction text generalizing state with
  | nil =>
    cases feeds
    exact Nat.le_refl _
  | cons c rest ih =>
    rw [List.foldlM_cons] at feeds
    obtain ⟨middle, first, later⟩ := Option.bind_eq_some_iff.mp feeds
    have early := feed_breaks first
    have late := ih later
    rw [List.countP_cons]
    omega

-- Between its marks a text is read as itself or refused, up to its first break.
theorem feed_text {indent : Nat} {read blanks : Text} {c : Char} {next : Quoted}
    (visible : isBreak c = false) (feeds : (Quoted.text read blanks).feed indent c = some next) :
    (c = '\t' ∨ 0x20 ≤ c.toNat) ∧
      ∃ read' blanks', next = .text read' blanks' ∧ read' ++ blanks' = read ++ blanks ++ [c] := by
  unfold Quoted.feed at feeds
  split at feeds
  · next mark =>
    subst mark
    cases feeds
    exact ⟨.inr (by decide), _, _, rfl, by simp⟩
  · next other =>
    rcases read_cases feeds with ⟨mark, -⟩ | ⟨ends, -⟩ | ⟨blank, rfl⟩ | ⟨-, -, -, printed, rfl⟩
    · exact absurd mark other
    · rw [visible] at ends
      cases ends
    · refine ⟨?_, _, _, rfl, by simp⟩
      simp only [isBlank, Bool.or_eq_true, decide_eq_true_eq] at blank
      rcases blank with rfl | rfl
      · exact .inr (by decide)
      · exact .inl rfl
    · exact ⟨.inr printed, _, _, rfl, by simp⟩

theorem feed_visible (indent : Nat) (read blanks : Text) {c : Char}
    (visible : c = '\t' ∨ 0x20 ≤ c.toNat) :
    ∃ next, (Quoted.text read blanks).feed indent c = some next := by
  unfold Quoted.feed
  split
  · next mark =>
    subst mark
    exact ⟨_, rfl⟩
  · next other =>
    simp only [Quoted.step, Quoted.read, if_neg other]
    split_ifs with ends blank control
    · exact ⟨_, rfl⟩
    · exact ⟨_, rfl⟩
    · rcases visible with rfl | printed
      · exact absurd (by decide) blank
      · omega
    · exact ⟨_, rfl⟩

theorem visible_not_break {c : Char} (visible : c = '\t' ∨ 0x20 ≤ c.toNat) : isBreak c = false := by
  rcases visible with rfl | printed
  · decide
  · simp only [isBreak, Bool.or_eq_false_iff, decide_eq_false_iff_not]
    constructor
    · rintro rfl
      exact absurd printed (by decide)
    · rintro rfl
      exact absurd printed (by decide)

theorem feeds_visible (indent : Nat) {text : Text} (visible : ∀ c ∈ text, c = '\t' ∨ 0x20 ≤ c.toNat)
    (read blanks : Text) : ∃ read' blanks',
      text.foldlM (Quoted.feed indent) (.text read blanks) = some (.text read' blanks') ∧
        read' ++ blanks' = read ++ blanks ++ text := by
  induction text generalizing read blanks with
  | nil => exact ⟨read, blanks, rfl, by simp⟩
  | cons c rest ih =>
    obtain ⟨here, later⟩ := List.forall_mem_cons.mp visible
    obtain ⟨next, feeds⟩ := feed_visible indent read blanks here
    obtain ⟨-, middle, spaces, rfl, same⟩ := feed_text (visible_not_break here) feeds
    obtain ⟨read', blanks', ends, all⟩ := ih later middle spaces
    refine ⟨read', blanks', ?_, ?_⟩
    · rw [List.foldlM_cons, feeds]
      exact ends
    · rw [all, same, List.append_assoc]
      rfl

theorem visible_of_feeds {indent : Nat} {text read blanks : Text} {next : Quoted}
    (single : ∀ c ∈ text, isBreak c = false)
    (feeds : text.foldlM (Quoted.feed indent) (.text read blanks) = some next) :
    ∀ c ∈ text, c = '\t' ∨ 0x20 ≤ c.toNat := by
  induction text generalizing read blanks with
  | nil => exact fun c member => absurd member List.not_mem_nil
  | cons c rest ih =>
    obtain ⟨here, later⟩ := List.forall_mem_cons.mp single
    rw [List.foldlM_cons] at feeds
    obtain ⟨middle, first, ends⟩ := Option.bind_eq_some_iff.mp feeds
    obtain ⟨visible, read', blanks', rfl, -⟩ := feed_text here first
    exact List.forall_mem_cons.mpr ⟨visible, ih later ends⟩

-- The first break of a text is folded away.
theorem feeds_fewer {indent : Nat} {text read blanks : Text} {next : Quoted}
    (several : ∃ c ∈ text, isBreak c = true)
    (feeds : text.foldlM (Quoted.feed indent) (.text read blanks) = some next) :
    next.breaks < (read ++ blanks).countP isBreak + text.countP isBreak := by
  induction text generalizing read blanks with
  | nil =>
    obtain ⟨c, member, -⟩ := several
    cases member
  | cons c rest ih =>
    rw [List.foldlM_cons] at feeds
    obtain ⟨middle, first, later⟩ := Option.bind_eq_some_iff.mp feeds
    rw [List.countP_cons]
    cases ends : isBreak c with
    | true =>
      have other : c ≠ '\'' := by
        rintro rfl
        cases ends
      rw [Quoted.feed, if_neg other] at first
      have kept := read_breaks first
      have rest := feeds_breaks later
      simp only [if_true]
      omega
    | false =>
      obtain ⟨-, read', blanks', rfl, same⟩ := feed_text ends first
      have after : ∃ c ∈ rest, isBreak c = true := by
        obtain ⟨other, member, here⟩ := several
        rcases List.mem_cons.mp member with rfl | member
        · rw [ends] at here
          cases here
        · exact ⟨other, member, here⟩
      have fewer := ih after later
      rw [same, List.countP_append] at fewer
      simpa [ends] using fewer

theorem close_breaks {indent : Nat} {state : Quoted} {text : Text}
    (closes : state.close indent = some text) : text.countP isBreak ≤ state.breaks := by
  unfold Quoted.close at closes
  split at closes
  · next read marks =>
    cases closes
    exact step_breaks marks
  · cases closes

-- A text survives its marks exactly when it has no control character but tabs.
theorem decoded_iff (indent : Nat) (text : Text) :
    decoded indent text = some text ↔ ∀ c ∈ text, c = '\t' ∨ 0x20 ≤ c.toNat := by
  constructor
  · intro same
    obtain ⟨state, feeds, closes⟩ := Option.bind_eq_some_iff.mp same
    by_cases several : ∃ c ∈ text, isBreak c = true
    · have fewer := feeds_fewer several feeds
      have kept := close_breaks closes
      simp only [List.append_nil, List.countP_nil] at fewer
      omega
    · refine visible_of_feeds (fun c member => ?_) feeds
      cases ends : isBreak c with
      | false => rfl
      | true => exact absurd ⟨c, member, ends⟩ several
  · intro visible
    obtain ⟨read, blanks, feeds, same⟩ := feeds_visible indent visible [] []
    rw [decoded, feeds, Option.bind_some, Quoted.close, Quoted.step, Quoted.read, if_pos rfl]
    simpa using same

theorem run_append (scanner : Scanner) (first second : Text) :
    run scanner (first ++ second) = (run scanner first).bind fun next => run next second :=
  List.foldlM_append

theorem step_quoted {tokens : List Token} {place : Place} {state : Quoted} (opens : state.open)
    (c : Char) : step ⟨tokens, .quoted place state⟩ c =
      (state.step place.indent c).map fun next => ⟨tokens, .quoted place next⟩ := by
  cases state with
  | text read blanks => cases h : (Quoted.text read blanks).step place.indent c <;> simp [step, h]
  | mark read => exact opens.elim
  | folding read breaks column carriage =>
    cases h : (Quoted.folding read breaks column carriage).step place.indent c <;> simp [step, h]

theorem read_open {read blanks : Text} {c : Char} {next : Quoted} (other : c ≠ '\'')
    (reads : Quoted.read read blanks c = some next) : next.open := by
  rcases read_cases reads with ⟨mark, -⟩ | ⟨-, rfl⟩ | ⟨-, rfl⟩ | ⟨-, -, -, -, rfl⟩
  · exact absurd mark other
  · trivial
  · trivial
  · trivial

theorem step_open {indent : Nat} {state next : Quoted} {c : Char} (other : c ≠ '\'')
    (steps : state.step indent c = some next) : next.open := by
  cases state with
  | text read blanks => exact read_open other steps
  | mark read =>
    rw [Quoted.step, if_neg other] at steps
    cases steps
  | folding read breaks column carriage =>
    simp only [Quoted.step] at steps
    split_ifs at steps
    · cases steps; trivial
    · cases steps; trivial
    · cases steps; trivial
    · cases steps; trivial
    · exact read_open other steps

-- A quotation mark in an open state is the first of two, or the closing one.
theorem step_mark {indent : Nat} {state next : Quoted} (opens : state.open)
    (steps : state.step indent '\'' = some next) : ∃ read, next = .mark read := by
  cases state with
  | text read blanks =>
    cases steps
    exact ⟨_, rfl⟩
  | mark read => exact opens.elim
  | folding read breaks column carriage =>
    have same : (Quoted.folding read breaks column carriage).step indent '\'' =
        if column < indent then none else some (.mark (folded read breaks)) := by
      simp [Quoted.step, Quoted.read, isBreak]
    rw [same] at steps
    split at steps
    · cases steps
    · cases steps
      exact ⟨_, rfl⟩

theorem feed_open {indent : Nat} {state next : Quoted} {c : Char} (opens : state.open)
    (feeds : state.feed indent c = some next) : next.open := by
  unfold Quoted.feed at feeds
  split at feeds
  · next mark =>
    subst mark
    obtain ⟨middle, first, second⟩ := Option.bind_eq_some_iff.mp feeds
    obtain ⟨read, rfl⟩ := step_mark opens first
    cases second
    trivial
  · next other => exact step_open other feeds

theorem feeds_open {indent : Nat} {state next : Quoted} {text : Text} (opens : state.open)
    (feeds : text.foldlM (Quoted.feed indent) state = some next) : next.open := by
  induction text generalizing state with
  | nil =>
    cases feeds
    exact opens
  | cons c rest ih =>
    rw [List.foldlM_cons] at feeds
    obtain ⟨middle, first, later⟩ := Option.bind_eq_some_iff.mp feeds
    exact ih (feed_open opens first) later

theorem run_doubled {tokens : List Token} {place : Place} {state : Quoted} (opens : state.open)
    (text : Text) : run ⟨tokens, .quoted place state⟩ (doubled text) =
      (text.foldlM (Quoted.feed place.indent) state).map
        fun next => ⟨tokens, .quoted place next⟩ := by
  induction text generalizing state with
  | nil => rfl
  | cons c rest ih =>
    rw [doubled, List.flatMap_cons, ← doubled, run_append, List.foldlM_cons]
    by_cases mark : c = '\''
    · subst mark
      rw [if_pos rfl, Quoted.feed, if_pos rfl, run, List.foldlM_cons, step_quoted opens]
      cases first : state.step place.indent '\'' with
      | none => rfl
      | some middle =>
        obtain ⟨read, rfl⟩ := step_mark opens first
        have reopened : (Quoted.text (read ++ ['\'']) []).open := trivial
        exact ih reopened
    · rw [if_neg mark, Quoted.feed, if_neg mark, run, List.foldlM_cons, step_quoted opens]
      cases first : state.step place.indent c with
      | none => rfl
      | some next => exact ih (step_open mark first)

-- A quoted text up to the end of its line.
theorem run_quoted (tokens : List Token) (place : Place) (text : Text) :
    run ⟨tokens, .quoted place (.text [] [])⟩ (doubled text ++ ['\'', '\n']) =
      (decoded place.indent text).map
        fun read => ⟨tokens ++ [place.token (.quoted read)], .start 0⟩ := by
  have begun : (Quoted.text [] []).open := trivial
  rw [run_append, run_doubled begun, decoded]
  cases feeds : text.foldlM (Quoted.feed place.indent) (.text [] []) with
  | none => rfl
  | some state =>
    have opens := feeds_open begun feeds
    simp only [Option.map_some, Option.bind_some, run, List.foldlM_cons, step_quoted opens, Quoted.close]
    cases closes : state.step place.indent '\'' with
    | none => rfl
    | some next =>
      obtain ⟨read, rfl⟩ := step_mark opens closes
      rfl

theorem step_prepend (before tokens : List Token) (mode : Mode) (c : Char) :
    step ⟨before ++ tokens, mode⟩ c =
      (step ⟨tokens, mode⟩ c).map fun next => ⟨before ++ next.tokens, next.mode⟩ := by
  cases mode with
  | quoted place state =>
    cases state with
    | mark read =>
      simp only [step]
      split_ifs <;> simp [Scanner.emit]
    | text read blanks =>
      have opens : (Quoted.text read blanks).open := trivial
      rw [step_quoted opens, step_quoted opens, Option.map_map]
      rfl
    | folding read breaks column carriage =>
      have opens : (Quoted.folding read breaks column carriage).open := trivial
      rw [step_quoted opens, step_quoted opens, Option.map_map]
      rfl
  | _ =>
    simp only [step]
    split_ifs <;> simp [Scanner.emit]

theorem run_prepend (before tokens : List Token) (mode : Mode) (text : Text) :
    run ⟨before ++ tokens, mode⟩ text =
      (run ⟨tokens, mode⟩ text).map fun next => ⟨before ++ next.tokens, next.mode⟩ := by
  induction text generalizing tokens mode with
  | nil => rfl
  | cons c rest ih =>
    rw [run, List.foldlM_cons, step_prepend, run, List.foldlM_cons]
    cases step ⟨tokens, mode⟩ c with
    | none => rfl
    | some next => exact ih next.tokens next.mode

theorem run_from {text : Text} {tokens : List Token} {mode : Mode}
    (alone : run ⟨[], .start 0⟩ text = some ⟨tokens, mode⟩) (before : List Token) :
    run ⟨before, .start 0⟩ text = some ⟨before ++ tokens, mode⟩ := by
  have same := run_prepend before [] (.start 0) text
  rw [List.append_nil, alone] at same
  exact same

theorem run_field {start : Text} {tokens : List Token} {place : Place}
    (leads : run ⟨[], .start 0⟩ start = some ⟨tokens, .quoted place (.text [] [])⟩)
    (before : List Token) (text : Text) :
    run ⟨before, .start 0⟩ (start ++ (doubled text ++ ['\'', '\n'])) =
      (decoded place.indent text).map
        fun read => ⟨before ++ tokens ++ [place.token (.quoted read)], .start 0⟩ := by
  rw [run_append, run_from leads, Option.bind_some, run_quoted]

end Yaml
