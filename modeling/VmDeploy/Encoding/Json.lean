import Mathlib.Data.List.Basic

/-! JSON texts read by a pushdown automaton, one character at a time, and the indented
text of a list of flat objects.

The grammar is RFC 8259 with the constants `NaN`, `Infinity` and `-Infinity`; limits
on what a value may hold are a check of their own. -/

set_option autoImplicit false

namespace Json

/-- What a string holds: characters, and surrogate escapes without their partner. -/
inductive Point where
  | scalar (c : Char)
  | half (unit : Nat)
  deriving DecidableEq, Repr

abbrev Content := List Point

def plain (text : List Char) : Content :=
  text.map .scalar

/-- Numbers and constants are kept as they are written. -/
inductive Value where
  | null
  | bool (value : Bool)
  | number (text : List Char)
  | constant (text : List Char)
  | string (content : Content)
  | array (elements : List Value)
  | object (members : List (Content × Value))

inductive NumberPhase where
  | minus
  | zero
  | digits
  | dot
  | fraction
  | exponent
  | sign
  | power
  deriving DecidableEq, Repr

def NumberPhase.next (c : Char) : NumberPhase → Option NumberPhase
  | .minus => if c = '0' then some .zero else if c.isDigit then some .digits else none
  | .zero => if c = '.' then some .dot else if c = 'e' ∨ c = 'E' then some .exponent else none
  | .digits =>
      if c.isDigit then some .digits
      else if c = '.' then some .dot
      else if c = 'e' ∨ c = 'E' then some .exponent
      else none
  | .dot => if c.isDigit then some .fraction else none
  | .fraction =>
      if c.isDigit then some .fraction
      else if c = 'e' ∨ c = 'E' then some .exponent
      else none
  | .exponent =>
      if c = '+' ∨ c = '-' then some .sign else if c.isDigit then some .power else none
  | .sign | .power => if c.isDigit then some .power else none

def NumberPhase.complete : NumberPhase → Bool
  | .zero | .digits | .fraction | .power => true
  | _ => false

/-- An open array or object: what stands before the cursor, and the key of the member
whose value is being read. -/
inductive Frame where
  | elements (before : List Value)
  | members (before : List (Content × Value))
  | member (before : List (Content × Value)) (key : Content)

inductive Mode where
  | value (closes : Bool)
  | key (closes : Bool)
  | colon
  | after
  | done (value : Value)
  | text (content : Content)
  | escape (content : Content)
  | unicode (content : Content) (digits unit : Nat)
  | number (text : List Char) (phase : NumberPhase)
  | word (rest : List Char) (value : Value)

structure Reader where
  stack : List Frame
  mode : Mode

def isBlank (c : Char) : Bool :=
  c = ' ' || c = '\t' || c = '\n' || c = '\r'

def deliver (value : Value) : List Frame → Option Reader
  | [] => some ⟨[], .done value⟩
  | .elements before :: rest => some ⟨.elements (before ++ [value]) :: rest, .after⟩
  | .member before key :: rest => some ⟨.members (before ++ [(key, value)]) :: rest, .after⟩
  | .members _ :: _ => none

def deliverText (content : Content) : List Frame → Option Reader
  | .members before :: rest => some ⟨.member before content :: rest, .colon⟩
  | stack => deliver (.string content) stack

def closeArray : List Frame → Option Reader
  | .elements before :: rest => deliver (.array before) rest
  | _ => none

def closeObject : List Frame → Option Reader
  | .members before :: rest => deliver (.object before) rest
  | _ => none

def beginValue (c : Char) (stack : List Frame) : Option Reader :=
  if c = '"' then some ⟨stack, .text []⟩
  else if c = '[' then some ⟨.elements [] :: stack, .value true⟩
  else if c = '{' then some ⟨.members [] :: stack, .key true⟩
  else if c = '-' then some ⟨stack, .number [c] .minus⟩
  else if c = '0' then some ⟨stack, .number [c] .zero⟩
  else if c.isDigit then some ⟨stack, .number [c] .digits⟩
  else if c = 't' then some ⟨stack, .word ['r', 'u', 'e'] (.bool true)⟩
  else if c = 'f' then some ⟨stack, .word ['a', 'l', 's', 'e'] (.bool false)⟩
  else if c = 'n' then some ⟨stack, .word ['u', 'l', 'l'] .null⟩
  else if c = 'N' then some ⟨stack, .word ['a', 'N'] (.constant ['N', 'a', 'N'])⟩
  else if c = 'I' then
    some ⟨stack, .word ['n', 'f', 'i', 'n', 'i', 't', 'y'] (.constant "Infinity".toList)⟩
  else none

def afterValue (c : Char) : List Frame → Option Reader
  | .elements before :: rest =>
      if c = ',' then some ⟨.elements before :: rest, .value false⟩
      else if c = ']' then closeArray (.elements before :: rest)
      else none
  | .members before :: rest =>
      if c = ',' then some ⟨.members before :: rest, .key false⟩
      else if c = '}' then closeObject (.members before :: rest)
      else none
  | _ => none

def pass (c : Char) (reader : Reader) : Option Reader :=
  if isBlank c then some reader
  else
    match reader.mode with
    | .after => afterValue c reader.stack
    | _ => none

def isHigh (unit : Nat) : Bool :=
  0xD800 ≤ unit && unit < 0xDC00

def isLow (unit : Nat) : Bool :=
  0xDC00 ≤ unit && unit < 0xE000

def joined (high low : Nat) : Char :=
  Char.ofNat ((high - 0xD800) * 0x400 + (low - 0xDC00) + 0x10000)

/-- Add an escaped code unit. A low surrogate completes the high one just before it. -/
def addUnit (content : Content) (unit : Nat) : Content :=
  if isLow unit then
    match content.getLast? with
    | some (.half high) =>
        if isHigh high then content.dropLast ++ [.scalar (joined high unit)]
        else content ++ [.half unit]
    | _ => content ++ [.half unit]
  else if isHigh unit then content ++ [.half unit]
  else content ++ [.scalar (Char.ofNat unit)]

def hexValue? (c : Char) : Option Nat :=
  if c.isDigit then some (c.toNat - 48)
  else if 'a' ≤ c ∧ c ≤ 'f' then some (c.toNat - 87)
  else if 'A' ≤ c ∧ c ≤ 'F' then some (c.toNat - 55)
  else none

def escaped? (c : Char) : Option Char :=
  if c = '"' ∨ c = '\\' ∨ c = '/' then some c
  else if c = 'b' then some '\x08'
  else if c = 'f' then some '\x0c'
  else if c = 'n' then some '\n'
  else if c = 'r' then some '\r'
  else if c = 't' then some '\t'
  else none

def step (reader : Reader) (c : Char) : Option Reader :=
  match reader.mode with
  | .value closes =>
      if isBlank c then some reader
      else if c = ']' && closes then closeArray reader.stack
      else beginValue c reader.stack
  | .key closes =>
      if isBlank c then some reader
      else if c = '}' && closes then closeObject reader.stack
      else if c = '"' then some ⟨reader.stack, .text []⟩
      else none
  | .colon =>
      if isBlank c then some reader
      else if c = ':' then some ⟨reader.stack, .value false⟩
      else none
  | .after | .done _ => pass c reader
  | .text content =>
      if c = '"' then deliverText content reader.stack
      else if c = '\\' then some ⟨reader.stack, .escape content⟩
      else if c.toNat < 0x20 then none
      else some ⟨reader.stack, .text (content ++ [.scalar c])⟩
  | .escape content =>
      if c = 'u' then some ⟨reader.stack, .unicode content 0 0⟩
      else (escaped? c).map fun char => ⟨reader.stack, .text (content ++ [.scalar char])⟩
  | .unicode content digits unit =>
      (hexValue? c).map fun digit =>
        if digits = 3 then ⟨reader.stack, .text (addUnit content (unit * 16 + digit))⟩
        else ⟨reader.stack, .unicode content (digits + 1) (unit * 16 + digit)⟩
  | .number text phase =>
      match phase.next c with
      | some next => some ⟨reader.stack, .number (text ++ [c]) next⟩
      | none =>
          if phase.complete then (deliver (.number text) reader.stack).bind (pass c)
          else if phase = .minus ∧ c = 'I' then
            some ⟨reader.stack,
              .word ['n', 'f', 'i', 'n', 'i', 't', 'y'] (.constant "-Infinity".toList)⟩
          else none
  | .word rest value =>
      match rest with
      | [] => none
      | expected :: more =>
          if c = expected then
            if more = [] then deliver value reader.stack else some ⟨reader.stack, .word more value⟩
          else none

def finish (reader : Reader) : Option Value :=
  match reader.mode with
  | .done value => some value
  | .number text phase =>
      if phase.complete && reader.stack.isEmpty then some (.number text) else none
  | _ => none

def run (reader : Reader) (text : List Char) : Option Reader :=
  text.foldlM step reader

def parse (text : List Char) : Option Value :=
  (run ⟨[], .value false⟩ text).bind finish

/-- What a reader allows beyond the grammar; no number is no limit. -/
structure Limits where
  constants : Bool
  depth : Option Nat
  integerDigits : Option Nat

def within (limit : Option Nat) (amount : Nat) : Bool :=
  limit.all (amount ≤ ·)

/-- The digits of an integer, which has no fraction and no exponent. -/
def integerDigits (text : List Char) : Nat :=
  if text.all fun c => c.isDigit || c = '-' then text.countP (·.isDigit) else 0

mutual

/-- Every part of a value, inside so many arrays and objects, is within the limits. -/
def Value.admitted (limits : Limits) (depth : Nat) : Value → Bool
  | .null | .bool _ | .string _ => true
  | .number text => within limits.integerDigits (integerDigits text)
  | .constant _ => limits.constants
  | .array elements => within limits.depth (depth + 1) && allAdmitted limits (depth + 1) elements
  | .object members => within limits.depth (depth + 1) && membersAdmitted limits (depth + 1) members

def allAdmitted (limits : Limits) (depth : Nat) : List Value → Bool
  | [] => true
  | value :: rest => value.admitted limits depth && allAdmitted limits depth rest

def membersAdmitted (limits : Limits) (depth : Nat) : List (Content × Value) → Bool
  | [] => true
  | (_, value) :: rest => value.admitted limits depth && membersAdmitted limits depth rest

end

def read (limits : Limits) (text : List Char) : Option Value :=
  (parse text).bind fun value => if value.admitted limits 0 then some value else none

end Json
