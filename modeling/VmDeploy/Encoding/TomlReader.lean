import VmDeploy.Encoding.Toml

/-! `tomllib`: from the text of a TOML document to its tables.

A reader takes what it needs from the front of a text and returns it with the rest. Every way to
reject a text is `none`: where a `TOMLDecodeError` points is left out, and so is which error
a decimal integer raises that is beyond the interpreter's limit on digits. -/

set_option autoImplicit false

namespace Toml

open Python

abbrev Text := List Char

/-- Control characters other than the tab. -/
def isIllegal (c : Char) : Bool :=
  (c.toNat < 0x20 || c.toNat = 0x7F) && c ≠ '\t'

def isBlank (c : Char) : Bool :=
  c = ' ' || c = '\t'

def isFiller (c : Char) : Bool :=
  isBlank c || c = '\n'

def isBareKeyChar (c : Char) : Bool :=
  c.isAlphanum || c = '-' || c = '_'

def skipBlanks (text : Text) : Text :=
  text.dropWhile isBlank

def skipComment : Text → Option Text
  | '#' :: rest =>
      if (rest.takeWhile (· ≠ '\n')).any isIllegal then none else some (rest.dropWhile (· ≠ '\n'))
  | text => some text

/-- Blanks, line ends and comments between the elements of an array. -/
def skipFiller (commented : Bool) : Text → Option Text
  | [] => some []
  | c :: rest =>
      if commented then
        if c = '\n' then skipFiller false rest
        else if isIllegal c then none
        else skipFiller true rest
      else if isFiller c then skipFiller false rest
      else if c = '#' then skipFiller true rest
      else some (c :: rest)

def hexDigit? (c : Char) : Option Nat :=
  if c.isDigit then some (c.toNat - 48)
  else if 'a' ≤ c ∧ c ≤ 'f' then some (c.toNat - 87)
  else if 'A' ≤ c ∧ c ≤ 'F' then some (c.toNat - 55)
  else none

def unescaped? (c : Char) : Option Char :=
  if c = 'b' then some '\x08'
  else if c = 't' then some '\t'
  else if c = 'n' then some '\n'
  else if c = 'f' then some '\x0c'
  else if c = 'r' then some '\r'
  else if c = '"' then some '"'
  else if c = '\\' then some '\\'
  else none

def isScalar (code : Nat) : Bool :=
  code ≤ 0xD7FF || 0xE000 ≤ code && code ≤ 0x10FFFF

/-- Where the reader of a basic string stands: between characters, after a backslash, inside
the digits of a code, or after a backslash at the end of a line. -/
inductive StringMode where
  | plain
  | escape
  | hex (left code : Nat)
  | trimLine
  | trim
  deriving DecidableEq, Repr

def escapeMode (multiline : Bool) (c : Char) : Option (Text × StringMode) :=
  if multiline && isBlank c then some ([], .trimLine)
  else if multiline && c = '\n' then some ([], .trim)
  else if c = 'u' then some ([], .hex 3 0)
  else if c = 'U' then some ([], .hex 7 0)
  else (unescaped? c).map fun char => ([char], .plain)

/-- One character of a basic string that neither closes it nor is a quotation mark: what it
adds, and where it leads. -/
def stringStep (multiline : Bool) (c : Char) : StringMode → Option (Text × StringMode)
  | .plain | .trim =>
      if c = '\\' then some ([], .escape)
      else if isIllegal c && !(multiline && c = '\n') then none
      else some ([c], .plain)
  | .escape => escapeMode multiline c
  | .hex left code => do
      let digit ← hexDigit? c
      let code := code * 16 + digit
      if left = 0 then
        if isScalar code then some ([Char.ofNat code], .plain) else none
      else some ([], .hex (left - 1) code)
  | .trimLine => if isBlank c then some ([], .trimLine) else if c = '\n' then some ([], .trim) else none

/-- `parse_basic_str`, after the opening quotation marks. -/
def basicText (multiline : Bool) (mode : StringMode) (before : Text) : Text → Option (Text × Text)
  | [] => none
  | c :: rest =>
      if mode = .trim ∧ isFiller c then basicText multiline .trim before rest
      else if c = '"' ∧ (mode = .plain ∨ mode = .trim) then
        if ¬ multiline then some (before, rest)
        else
          match rest with
          | '"' :: '"' :: rest => some (before, rest)
          | _ => basicText multiline .plain (before ++ ['"']) rest
      else
        match stringStep multiline c mode with
        | some (added, next) => basicText multiline next (before ++ added) rest
        | none => none

/-- A literal string of one line, after its opening apostrophe. -/
def literalText (text : Text) : Option (Text × Text) :=
  let body := text.takeWhile (· ≠ '\'')
  match text.dropWhile (· ≠ '\'') with
  | _ :: rest => if body.any isIllegal then none else some (body, rest)
  | [] => none

def tripleText : Text → Option (Text × Text)
  | [] => none
  | c :: rest =>
      match c, rest with
      | '\'', '\'' :: '\'' :: after => some ([], after)
      | c, rest => (tripleText rest).map fun read => (c :: read.1, read.2)

/-- Two more quotes may stand before the closing ones. -/
def withQuotes (quote : Char) (body : Text) : Text → Text × Text
  | c :: d :: rest =>
      if c ≠ quote then (body, c :: d :: rest)
      else if d ≠ quote then (body ++ [quote], d :: rest)
      else (body ++ [quote, quote], rest)
  | [c] => if c ≠ quote then (body, [c]) else (body ++ [quote], [])
  | [] => (body, [])

def withoutNewline : Text → Text
  | '\n' :: rest => rest
  | text => text

def multilineBasic (text : Text) : Option (Text × Text) :=
  (basicText true .plain [] (withoutNewline text)).map fun read => withQuotes '"' read.1 read.2

def multilineLiteral (text : Text) : Option (Text × Text) := do
  let (body, rest) ← tripleText (withoutNewline text)
  if body.any fun c => isIllegal c && c ≠ '\n' then none else some (withQuotes '\'' body rest)

abbrev Key := List String

def keyPart : Text → Option (String × Text)
  | '"' :: rest => (basicText false .plain [] rest).map fun read => (String.ofList read.1, read.2)
  | '\'' :: rest => (literalText rest).map fun read => (String.ofList read.1, read.2)
  | text =>
      match text.takeWhile isBareKeyChar with
      | [] => none
      | part => some (String.ofList part, text.dropWhile isBareKeyChar)

/-- `parse_key`, for at most so many parts. -/
def readKey : Nat → Text → Option (Key × Text)
  | 0, _ => none
  | parts + 1, text => do
      let (part, rest) ← keyPart text
      match skipBlanks rest with
      | '.' :: rest => do
          let (more, rest) ← readKey parts (skipBlanks rest)
          some (part :: more, rest)
      | rest => some ([part], rest)

/-- The rest after digits that single underscores may separate. -/
def digitRun (isDigit : Char → Bool) : Text → Text
  | [] => []
  | c :: rest =>
      if isDigit c then digitRun isDigit rest
      else
        match c, rest with
        | '_', d :: rest => if isDigit d then digitRun isDigit rest else '_' :: d :: rest
        | _, _ => c :: rest

def consumed (text rest : Text) : Text :=
  text.take (text.length - rest.length)

def digitsValue (base : Nat) (digits : Text) : Nat :=
  (digits.filterMap hexDigit?).foldl (fun value digit => value * base + digit) 0

def radix? : Char → Option (Nat × (Char → Bool))
  | 'x' => some (16, fun c => (hexDigit? c).isSome)
  | 'b' => some (2, fun c => c = '0' || c = '1')
  | 'o' => some (8, fun c => '0' ≤ c && c ≤ '7')
  | _ => none

def radixNumber : Text → Option (Value × Text)
  | '0' :: mark :: c :: text => do
      let (base, isDigit) ← radix? mark
      if isDigit c then
        let rest := digitRun isDigit text
        some (.integer (digitsValue base (consumed (c :: text) rest)), rest)
      else none
  | _ => none

def skipSign : Text → Text
  | '+' :: rest | '-' :: rest => rest
  | text => text

/-- The rest after the integer part of a decimal number. -/
def integerPart : Text → Option Text
  | '0' :: rest => some rest
  | c :: rest => if c.isDigit then some (digitRun Char.isDigit rest) else none
  | [] => none

def skipFraction : Text → Text
  | '.' :: c :: rest => if c.isDigit then digitRun Char.isDigit rest else '.' :: c :: rest
  | text => text

def skipExponent (text : Text) : Text :=
  match text with
  | mark :: rest =>
      if mark = 'e' ∨ mark = 'E' then
        match skipSign rest with
        | c :: rest => if c.isDigit then digitRun Char.isDigit rest else text
        | [] => text
      else text
  | [] => text

def signed (text : Text) (value : Nat) : Int :=
  if text.head? = some '-' then -value else value

/-- A decimal integer may have so many digits; a float is kept as it is written. -/
def decimalNumber (digitLimit : Option Nat) (text : Text) : Option (Value × Text) := do
  let whole ← integerPart (skipSign text)
  let rest := skipExponent (skipFraction whole)
  if rest.length < whole.length then
    some (.float (String.ofList (consumed text rest)), rest)
  else
    let digits := (consumed (skipSign text) whole).filter (·.isDigit)
    if digitLimit.all (digits.length ≤ ·) then
      some (.integer (signed text (digitsValue 10 digits)), whole)
    else none

def pair? (low high : Nat) : Text → Option (Nat × Text)
  | c :: d :: rest =>
      let value := (c.toNat - 48) * 10 + (d.toNat - 48)
      if c.isDigit ∧ d.isDigit ∧ low ≤ value ∧ value ≤ high then some (value, rest) else none
  | _ => none

def char? (expected : Char) : Text → Option Text
  | c :: rest => if c = expected then some rest else none
  | [] => none

def skipFractions : Text → Text
  | '.' :: c :: rest => if c.isDigit then rest.dropWhile (·.isDigit) else '.' :: c :: rest
  | text => text

def timeOfDay (text : Text) : Option Text := do
  let (_, rest) ← pair? 0 23 text
  let (_, rest) ← pair? 0 59 (← char? ':' rest)
  let (_, rest) ← pair? 0 59 (← char? ':' rest)
  some (skipFractions rest)

def offset? (text : Text) : Option Text := do
  let (_, rest) ← pair? 0 23 text
  let (_, rest) ← pair? 0 59 (← char? ':' rest)
  some rest

def skipOffset : Text → Text
  | [] => []
  | c :: rest =>
      if c = 'Z' ∨ c = 'z' then rest
      else if c = '+' ∨ c = '-' then (offset? rest).getD (c :: rest)
      else c :: rest

def date? (text : Text) : Option ((Nat × Nat × Nat) × Text) := do
  let (century, rest) ← pair? 0 99 text
  let (year, rest) ← pair? 0 99 rest
  let (month, rest) ← pair? 1 12 (← char? '-' rest)
  let (day, rest) ← pair? 1 31 (← char? '-' rest)
  some ((century * 100 + year, month, day), rest)

def isLeap (year : Nat) : Bool :=
  year % 4 = 0 && (year % 100 ≠ 0 || year % 400 = 0)

def daysIn (year month : Nat) : Nat :=
  if month = 2 then if isLeap year then 29 else 28
  else if month = 4 ∨ month = 6 ∨ month = 9 ∨ month = 11 then 30
  else 31

def skipTime (text : Text) : Text :=
  match text with
  | c :: rest =>
      if c = 'T' ∨ c = 't' ∨ c = ' ' then (timeOfDay rest).elim text skipOffset else text
  | [] => text

def specialFloat (text : Text) : Option (Value × Text) :=
  let rest := skipSign text
  if "inf".toList.isPrefixOf rest || "nan".toList.isPrefixOf rest then
    some (.float (String.ofList (consumed text (rest.drop 3))), rest.drop 3)
  else none

/-- Whatever starts with a digit, a sign or a letter and is no boolean. A date that does not
exist is an error. -/
def plainValue (digitLimit : Option Nat) (text : Text) : Option (Value × Text) :=
  match date? text with
  | some ((year, month, day), rest) =>
      let rest := skipTime rest
      if 1 ≤ year ∧ day ≤ daysIn year month then
        some (.datetime (String.ofList (consumed text rest)), rest)
      else none
  | none =>
      match timeOfDay text with
      | some rest => some (.datetime (String.ofList (consumed text rest)), rest)
      | none =>
          match radixNumber text with
          | some read => some read
          | none =>
              match integerPart (skipSign text) with
              | some _ => decimalNumber digitLimit text
              | none => specialFloat text

inductive FlagKind where
  | frozen
  | explicitNest
  deriving DecidableEq, Repr

/-- A recursive flag also holds of every key below its own. -/
structure Flag where
  key : Key
  kind : FlagKind
  recursive : Bool
  deriving DecidableEq, Repr

abbrev Flags := List Flag

def Flags.has (flags : Flags) (key : Key) (kind : FlagKind) : Bool :=
  flags.any fun flag =>
    flag.kind = kind && (flag.key = key || (flag.recursive && flag.key.isPrefixOf key))

/-- `unset_all` -/
def Flags.without (flags : Flags) (key : Key) : Flags :=
  flags.filter fun flag => !key.isPrefixOf flag.key

def Value.isNest : Value → Bool
  | .array _ | .table _ => true
  | _ => false

/-- Change the table at a key, with every table on the way created; of a list of tables,
the last one is meant where lists may be entered. -/
def updateNest (accessLists : Bool) : Key → (Table → Option Table) → Table → Option Table
  | [], change, table => change table
  | part :: rest, change, table =>
      match Dict.get? table part with
      | none => (updateNest accessLists rest change []).map fun inner =>
          Dict.assign table part (.table inner)
      | some (.table inner) => (updateNest accessLists rest change inner).map fun inner =>
          Dict.assign table part (.table inner)
      | some (.array elements) =>
          match accessLists, elements.getLast? with
          | true, some (.table inner) => (updateNest accessLists rest change inner).map fun inner =>
              Dict.assign table part (.array (elements.dropLast ++ [.table inner]))
          | _, _ => none
      | some _ => none

def addEntry (accessLists : Bool) (parent : Key) (stem : String) (value : Value) (table : Table) :
    Option Table :=
  updateNest accessLists parent (fun nest =>
    if (Dict.get? nest stem).isSome then none else some (Dict.assign nest stem value)) table

def appendTable (stem : String) (nest : Table) : Option Table :=
  match Dict.get? nest stem with
  | none => some (Dict.assign nest stem (.array [.table []]))
  | some (.array elements) => some (Dict.assign nest stem (.array (elements ++ [.table []])))
  | some _ => none

mutual

/-- `parse_value`, inside at most so many arrays and tables. -/
def readValue (digitLimit : Option Nat) : Nat → Text → Option (Value × Text)
  | 0, _ => none
  | fuel + 1, text =>
      match text with
      | '"' :: '"' :: '"' :: rest =>
          (multilineBasic rest).map fun read => (.string (String.ofList read.1), read.2)
      | '"' :: rest =>
          (basicText false .plain [] rest).map fun read => (.string (String.ofList read.1), read.2)
      | '\'' :: '\'' :: '\'' :: rest =>
          (multilineLiteral rest).map fun read => (.string (String.ofList read.1), read.2)
      | '\'' :: rest => (literalText rest).map fun read => (.string (String.ofList read.1), read.2)
      | 't' :: 'r' :: 'u' :: 'e' :: rest => some (.boolean true, rest)
      | 'f' :: 'a' :: 'l' :: 's' :: 'e' :: rest => some (.boolean false, rest)
      | '[' :: rest => do
          match ← skipFiller false rest with
          | ']' :: rest => some (.array [], rest)
          | rest => do
              let (elements, rest) ← readElements digitLimit fuel rest
              some (.array elements, rest)
      | '\x7b' :: rest =>
          match skipBlanks rest with
          | '\x7d' :: rest => some (.table [], rest)
          | rest => do
              let (entries, rest) ← readEntries digitLimit fuel [] [] rest
              some (.table entries, rest)
      | text => plainValue digitLimit text

def readElements (digitLimit : Option Nat) : Nat → Text → Option (List Value × Text)
  | 0, _ => none
  | fuel + 1, text => do
      let (value, rest) ← readValue digitLimit fuel text
      match ← skipFiller false rest with
      | ']' :: rest => some ([value], rest)
      | ',' :: rest => do
          match ← skipFiller false rest with
          | ']' :: rest => some ([value], rest)
          | rest => do
              let (values, rest) ← readElements digitLimit fuel rest
              some (value :: values, rest)
      | _ => none

def readEntries (digitLimit : Option Nat) :
    Nat → Table → Flags → Text → Option (Table × Text)
  | 0, _, _, _ => none
  | fuel + 1, entries, flags, text => do
      let (key, rest) ← readKey text.length text
      let rest ← char? '=' rest
      let (value, rest) ← readValue digitLimit fuel (skipBlanks rest)
      if flags.has key .frozen then none
      else do
        let entries ← addEntry false key.dropLast (key.getLastD "") value entries
        match skipBlanks rest with
        | '\x7d' :: rest => some (entries, rest)
        | ',' :: rest =>
            let flags := if value.isNest then ⟨key, .frozen, true⟩ :: flags else flags
            readEntries digitLimit fuel entries flags (skipBlanks rest)
        | _ => none

end

/-- What has been read so far: the tables, what may not be changed any more, and what may not
from the next table on. -/
structure Output where
  data : Table
  flags : Flags
  pending : List Key

def Output.finalizePending (out : Output) : Output :=
  { out with
    flags := (out.pending.map fun key => ⟨key, .explicitNest, false⟩) ++ out.flags
    pending := [] }

/-- `create_dict_rule`, after the bracket. -/
def createTable (out : Output) (text : Text) : Option (Key × Output × Text) := do
  let (key, rest) ← readKey text.length (skipBlanks text)
  if out.flags.has key .explicitNest || out.flags.has key .frozen then none
  else do
    let data ← updateNest true key some out.data
    let rest ← char? ']' rest
    some (key, { out with data, flags := ⟨key, .explicitNest, false⟩ :: out.flags }, rest)

/-- `create_list_rule`, after the brackets. -/
def createList (out : Output) (text : Text) : Option (Key × Output × Text) := do
  let (key, rest) ← readKey text.length (skipBlanks text)
  if out.flags.has key .frozen then none
  else do
    let data ← updateNest true key.dropLast (appendTable (key.getLastD "")) out.data
    let rest ← char? ']' (← char? ']' rest)
    let flags := ⟨key, .explicitNest, false⟩ :: out.flags.without key
    some (key, { out with data, flags }, rest)

/-- `key_value_rule`, in the table of a header. -/
def keyValue (digitLimit : Option Nat) (header : Key) (out : Output) (text : Text) :
    Option (Output × Text) := do
  let (key, rest) ← readKey text.length text
  let rest ← char? '=' rest
  let (value, rest) ← readValue digitLimit text.length (skipBlanks rest)
  let containers := (List.range (key.length - 1)).map fun i => header ++ key.take (i + 1)
  if containers.any fun container => out.flags.has container .explicitNest then none
  else if out.flags.has (header ++ key.dropLast) .frozen then none
  else do
    let data ← addEntry true (header ++ key.dropLast) (key.getLastD "") value out.data
    let flags := if value.isNest then ⟨header ++ key, .frozen, true⟩ :: out.flags else out.flags
    some ({ data, flags, pending := containers ++ out.pending }, rest)

/-- One statement that starts with the character, and the header it leads to. -/
def statement (digitLimit : Option Nat) (header : Key) (out : Output) :
    Text → Option (Key × Output × Text)
  | '[' :: '[' :: rest => createList out.finalizePending rest
  | '[' :: rest => createTable out.finalizePending rest
  | '#' :: rest => some (header, out, '#' :: rest)
  | c :: rest => do
      if isBareKeyChar c || c = '"' || c = '\'' then
        let (out, rest) ← keyValue digitLimit header out (c :: rest)
        some (header, out, rest)
      else none
  | [] => none

/-- The loop over the statements, each of which takes at least one character. -/
def statements (digitLimit : Option Nat) : Nat → Key → Output → Text → Option Table
  | 0, _, _, _ => none
  | fuel + 1, header, out, text =>
      match skipBlanks text with
      | [] => some out.data
      | '\n' :: rest => statements digitLimit fuel header out rest
      | text => do
          let (header, out, rest) ← statement digitLimit header out text
          match ← skipComment (skipBlanks rest) with
          | [] => some out.data
          | '\n' :: rest => statements digitLimit fuel header out rest
          | _ => none

/-- `replace("\r\n", "\n")` -/
def withoutReturns : Text → Text
  | '\r' :: '\n' :: rest => '\n' :: withoutReturns rest
  | c :: rest => c :: withoutReturns rest
  | [] => []

/-- `tomllib.loads` -/
def loads (digitLimit : Option Nat) (text : Text) : Option Table :=
  let source := withoutReturns text
  statements digitLimit (source.length + 1) [] ⟨[], [], []⟩ source

end Toml
