import VmDeploy.Encoding.Json

/-! The indented text of a list of flat objects, and what a reader makes of it. -/

set_option autoImplicit false

namespace Json

section Writing

variable (escape : Char → List Char)

def quoted (text : List Char) : List Char :=
  '"' :: text.flatMap escape ++ ['"']

def newline (indent : Nat) : List Char :=
  '\n' :: List.replicate indent ' '

def block (opening closing : Char) (indent : Nat) : List (List Char) → List Char
  | [] => [opening, closing]
  | part :: parts =>
      opening :: (newline (indent + 2) ++ part ++
        parts.flatMap (fun part => ',' :: (newline (indent + 2) ++ part)) ++
        (newline indent ++ [closing]))

abbrev Fields := List (List Char × List Char)

def memberText (member : List Char × List Char) : List Char :=
  quoted escape member.1 ++ ([':', ' '] ++ quoted escape member.2)

def objectText (members : Fields) : List Char :=
  block '{' '}' 2 (members.map (memberText escape))

def document (objects : List Fields) : List Char :=
  block '[' ']' 0 (objects.map (objectText escape))

end Writing

def memberValue (member : List Char × List Char) : Content × Value :=
  (plain member.1, .string (plain member.2))

def objectValue (members : Fields) : Value :=
  .object (members.map memberValue)

theorem run_append (reader : Reader) (first second : List Char) :
    run reader (first ++ second) = (run reader first).bind fun next => run next second :=
  List.foldlM_append

theorem run_cons (reader : Reader) (c : Char) (text : List Char) :
    run reader (c :: text) = (step reader c).bind fun next => run next text :=
  rfl

theorem run_newline {reader : Reader} (indent : Nat)
    (idle : ∀ c, isBlank c = true → step reader c = some reader) :
    run reader (newline indent) = some reader := by
  have spaces : ∀ indent, run reader (List.replicate indent ' ') = some reader := by
    intro indent
    induction indent with
    | zero => rfl
    | succ indent ih =>
      rw [List.replicate_succ, run_cons, idle ' ' rfl]
      exact ih
  rw [newline, run_cons, idle '\n' rfl]
  exact spaces indent

def Escapes (escape : Char → List Char) : Prop :=
  ∀ c stack content,
    run ⟨stack, .text content⟩ (escape c) = some ⟨stack, .text (content ++ [.scalar c])⟩

variable {escape : Char → List Char}

theorem run_content (escapes : Escapes escape) (stack : List Frame) (content : Content)
    (text : List Char) :
    run ⟨stack, .text content⟩ (text.flatMap escape) = some ⟨stack, .text (content ++ plain text)⟩ := by
  induction text generalizing content with
  | nil => simp [run, plain]
  | cons c text ih =>
    rw [List.flatMap_cons, run_append, escapes c]
    simp only [Option.bind_some]
    rw [ih]
    simp [plain]

theorem run_quoted (escapes : Escapes escape) {reader : Reader} (text : List Char)
    (opens : step reader '"' = some ⟨reader.stack, .text []⟩) :
    run reader (quoted escape text) = deliverText (plain text) reader.stack := by
  rw [quoted, List.cons_append, run_cons, opens, Option.bind_some, run_append,
    run_content escapes, Option.bind_some, List.nil_append]
  simp only [run_cons, step, if_true]
  cases deliverText (plain text) reader.stack <;> rfl

theorem run_memberText (escapes : Escapes escape) (stack : List Frame)
    (before : List (Content × Value)) (closes : Bool) (member : List Char × List Char) :
    run ⟨.members before :: stack, .key closes⟩ (memberText escape member) =
      some ⟨.members (before ++ [memberValue member]) :: stack, .after⟩ := by
  rw [memberText, run_append, run_quoted escapes member.1 (by simp [step, isBlank])]
  simp only [deliverText, Option.bind_some, List.cons_append, List.nil_append, run_cons, step]
  have space : isBlank ':' = false := rfl
  have blank : isBlank ' ' = true := rfl
  simp only [space, blank, Bool.false_eq_true, if_false, if_true, Option.bind_some]
  rw [run_quoted escapes member.2 (by simp [step, isBlank, beginValue])]
  rfl

theorem run_block {A : Type} {p : A → List Char} (frame : List A → Frame)
    (expects : Bool → Mode) (closed : List A → Option Reader) (stack : List Frame)
    {reader : Reader} {opening closing : Char} {indent : Nat}
    (opens : step reader opening = some ⟨frame [] :: stack, expects true⟩)
    (waits : ∀ before closes c, isBlank c = true →
      step ⟨frame before :: stack, expects closes⟩ c = some ⟨frame before :: stack, expects closes⟩)
    (adds : ∀ before closes entry, run ⟨frame before :: stack, expects closes⟩ (p entry) =
      some ⟨frame (before ++ [entry]) :: stack, .after⟩)
    (parts : ∀ before, step ⟨frame before :: stack, .after⟩ ',' =
      some ⟨frame before :: stack, expects false⟩)
    (closes : ∀ before, step ⟨frame before :: stack, .after⟩ closing = closed before)
    (empty : step ⟨frame [] :: stack, expects true⟩ closing = closed []) (entries : List A) :
    run reader (block opening closing indent (entries.map p)) = closed entries := by
  have line : ∀ before closes entry,
      run ⟨frame before :: stack, expects closes⟩ (newline (indent + 2) ++ p entry) =
        some ⟨frame (before ++ [entry]) :: stack, .after⟩ := by
    intro before closes entry
    rw [run_append, run_newline _ (waits before closes), Option.bind_some, adds]
  have rest : ∀ before : List A, ∀ entries : List A,
      run ⟨frame before :: stack, .after⟩ ((entries.map p).flatMap
        fun part => ',' :: (newline (indent + 2) ++ part)) =
        some ⟨frame (before ++ entries) :: stack, .after⟩ := by
    intro before entries
    induction entries generalizing before with
    | nil => simp [run]
    | cons entry entries ih =>
      rw [List.map_cons, List.flatMap_cons, List.cons_append, run_cons, parts, Option.bind_some,
        run_append, line, Option.bind_some, ih, List.append_assoc]
      rfl
  have last : ∀ before, run ⟨frame before :: stack, .after⟩ (newline indent ++ [closing]) =
      closed before := by
    intro before
    have idle : ∀ c, isBlank c = true →
        step ⟨frame before :: stack, .after⟩ c = some ⟨frame before :: stack, .after⟩ := by
      intro c blank
      simp [step, pass, blank]
    rw [run_append, run_newline _ idle, Option.bind_some, run_cons, closes]
    cases closed before <;> rfl
  cases entries with
  | nil =>
    rw [List.map_nil, block, run_cons, opens, Option.bind_some, run_cons, empty]
    cases closed [] <;> rfl
  | cons entry entries =>
    rw [List.map_cons, block, run_cons, opens, Option.bind_some, run_append, run_append, line,
      Option.bind_some, rest, Option.bind_some, last]
    rfl

theorem run_objectText (escapes : Escapes escape) (stack : List Frame) (before : List Value)
    (closes : Bool) (members : Fields) :
    run ⟨.elements before :: stack, .value closes⟩ (objectText escape members) =
      some ⟨.elements (before ++ [objectValue members]) :: stack, .after⟩ := by
  refine run_block (fun members => .members (members.map memberValue)) .key
    (fun members => some ⟨.elements (before ++ [objectValue members]) :: stack, .after⟩)
    (.elements before :: stack) ?_ ?_ ?_ ?_ ?_ ?_ members
  · simp [step, isBlank, beginValue]
  · intro before closes c blank
    simp [step, blank]
  · intro before closes member
    rw [run_memberText escapes, List.map_append]
    rfl
  · intro before
    simp [step, pass, isBlank, afterValue]
  · intro before
    simp [step, pass, isBlank, afterValue, closeObject, deliver, objectValue]
  · simp [step, isBlank, closeObject, deliver, objectValue]

-- A reader takes the indented text of flat objects for what was written.
theorem parse_document (escapes : Escapes escape) (objects : List Fields) :
    parse (document escape objects) = some (.array (objects.map objectValue)) := by
  have runs : run ⟨[], .value false⟩ (document escape objects) =
      some ⟨[], .done (.array (objects.map objectValue))⟩ := by
    refine run_block (fun objects => .elements (objects.map objectValue)) .value
      (fun objects => some ⟨[], .done (.array (objects.map objectValue))⟩) [] ?_ ?_ ?_ ?_ ?_ ?_ objects
    · simp [step, isBlank, beginValue]
    · intro before closes c blank
      simp [step, blank]
    · intro before closes members
      rw [run_objectText escapes, List.map_append]
      rfl
    · intro before
      simp [step, pass, isBlank, afterValue]
    · intro before
      simp [step, pass, isBlank, afterValue, closeArray, deliver]
    · simp [step, isBlank, closeArray, deliver]
  rw [parse, runs]
  rfl

-- Objects that hold only strings, in one array.
theorem objects_admitted {limits : Limits} (deep : within limits.depth 2 = true)
    {objects : List (List (Content × Value))}
    (strings : ∀ members ∈ objects, ∀ member ∈ members, ∃ content, member.2 = .string content) :
    (Value.array (objects.map .object)).admitted limits 0 = true := by
  have shallow : within limits.depth 1 = true := by
    unfold within at deep ⊢
    cases known : limits.depth with
    | none => rfl
    | some limit =>
      simp only [known, Option.all_some, decide_eq_true_eq] at deep ⊢
      omega
  have flat : ∀ members : List (Content × Value),
      (∀ member ∈ members, ∃ content, member.2 = .string content) →
        membersAdmitted limits 2 members = true := by
    intro members held
    induction members with
    | nil => rfl
    | cons member members ih =>
      obtain ⟨⟨content, here⟩, later⟩ := List.forall_mem_cons.mp held
      rw [membersAdmitted, ih later, here]
      rfl
  have each : allAdmitted limits 1 (objects.map .object) = true := by
    induction objects with
    | nil => rfl
    | cons members objects ih =>
      obtain ⟨here, later⟩ := List.forall_mem_cons.mp strings
      rw [List.map_cons, allAdmitted, ih later, Value.admitted, deep, flat members here]
      rfl
  rw [Value.admitted, shallow, each]
  rfl

theorem document_admitted {limits : Limits} (deep : within limits.depth 2 = true)
    (objects : List Fields) : (Value.array (objects.map objectValue)).admitted limits 0 = true := by
  have strings : ∀ members ∈ objects.map (List.map memberValue), ∀ member ∈ members,
      ∃ content, member.2 = .string content := by
    intro members present member inside
    obtain ⟨object, -, rfl⟩ := List.mem_map.mp present
    obtain ⟨field, -, rfl⟩ := List.mem_map.mp inside
    exact ⟨_, rfl⟩
  have admitted := objects_admitted deep strings
  rw [List.map_map] at admitted
  exact admitted

theorem read_document {limits : Limits} (deep : within limits.depth 2 = true)
    (escapes : Escapes escape) (objects : List Fields) :
    read limits (document escape objects) = some (.array (objects.map objectValue)) := by
  rw [read, parse_document escapes, Option.bind_some, if_pos (document_admitted deep objects)]

def hexDigit (value : Nat) : Char :=
  Nat.digitChar (value % 16)

def unicodeEscape (unit : Nat) : List Char :=
  ['\\', 'u', hexDigit (unit / 4096), hexDigit (unit / 256), hexDigit (unit / 16), hexDigit unit]

theorem hexValue_hexDigit (value : Nat) : hexValue? (hexDigit value) = some (value % 16) := by
  have all : ∀ digit : Fin 16, hexValue? (Nat.digitChar digit) = some digit.val := by decide
  exact all ⟨value % 16, by omega⟩

theorem step_escape (stack : List Frame) (content : Content) :
    step ⟨stack, .text content⟩ '\\' = some ⟨stack, .escape content⟩ := by
  simp [step]

theorem step_unicode (stack : List Frame) (content : Content) {digits : Nat} (more : digits ≠ 3)
    (unit value : Nat) : step ⟨stack, .unicode content digits unit⟩ (hexDigit value) =
      some ⟨stack, .unicode content (digits + 1) (unit * 16 + value % 16)⟩ := by
  simp [step, hexValue_hexDigit, more]

theorem step_unicode_last (stack : List Frame) (content : Content) (unit value : Nat) :
    step ⟨stack, .unicode content 3 unit⟩ (hexDigit value) =
      some ⟨stack, .text (addUnit content (unit * 16 + value % 16))⟩ := by
  simp [step, hexValue_hexDigit]

theorem run_unicodeEscape (stack : List Frame) (content : Content) {unit : Nat}
    (small : unit < 65536) :
    run ⟨stack, .text content⟩ (unicodeEscape unit) = some ⟨stack, .text (addUnit content unit)⟩ := by
  have value : (((0 * 16 + unit / 4096 % 16) * 16 + unit / 256 % 16) * 16 + unit / 16 % 16) * 16 +
      unit % 16 = unit := by omega
  have begins : step ⟨stack, .escape content⟩ 'u' = some ⟨stack, .unicode content 0 0⟩ := rfl
  rw [unicodeEscape, run_cons, step_escape, Option.bind_some, run_cons, begins, Option.bind_some,
    run_cons, step_unicode _ _ (by decide), Option.bind_some, run_cons,
    step_unicode _ _ (by decide), Option.bind_some, run_cons, step_unicode _ _ (by decide),
    Option.bind_some, run_cons, step_unicode_last, value]
  rfl

theorem code_range (c : Char) :
    c.toNat < 0xD800 ∨ 0xDFFF < c.toNat ∧ c.toNat < 0x110000 :=
  c.valid

theorem addUnit_scalar (content : Content) (c : Char) :
    addUnit content c.toNat = content ++ [.scalar c] := by
  have range := code_range c
  have high : isHigh c.toNat = false := by
    simp only [isHigh, Bool.and_eq_false_iff, decide_eq_false_iff_not]
    omega
  have low : isLow c.toNat = false := by
    simp only [isLow, Bool.and_eq_false_iff, decide_eq_false_iff_not]
    omega
  rw [addUnit, low, high, Char.ofNat_toNat]
  rfl

/-- A character beyond the basic plane, as two surrogate escapes. -/
def surrogatePair (c : Char) : List Char :=
  unicodeEscape (0xD800 + (c.toNat - 0x10000) / 0x400) ++
    unicodeEscape (0xDC00 + (c.toNat - 0x10000) % 0x400)

theorem run_surrogatePair (stack : List Frame) (content : Content) {c : Char}
    (large : 0x10000 ≤ c.toNat) :
    run ⟨stack, .text content⟩ (surrogatePair c) =
      some ⟨stack, .text (content ++ [.scalar c])⟩ := by
  have range := code_range c
  rw [surrogatePair, run_append, run_unicodeEscape _ _ (by omega), Option.bind_some,
    run_unicodeEscape _ _ (by omega)]
  have high : isHigh (0xD800 + (c.toNat - 0x10000) / 0x400) = true := by
    simp only [isHigh, Bool.and_eq_true, decide_eq_true_eq]
    omega
  have alone : isLow (0xD800 + (c.toNat - 0x10000) / 0x400) = false := by
    simp only [isLow, Bool.and_eq_false_iff, decide_eq_false_iff_not]
    omega
  have low : isLow (0xDC00 + (c.toNat - 0x10000) % 0x400) = true := by
    simp only [isLow, Bool.and_eq_true, decide_eq_true_eq]
    omega
  have value : (0xD800 + (c.toNat - 0x10000) / 0x400 - 0xD800) * 0x400 +
      (0xDC00 + (c.toNat - 0x10000) % 0x400 - 0xDC00) + 0x10000 = c.toNat := by omega
  have whole : joined (0xD800 + (c.toNat - 0x10000) / 0x400)
      (0xDC00 + (c.toNat - 0x10000) % 0x400) = c := by
    rw [joined, value, Char.ofNat_toNat]
  simp [addUnit, alone, high, low, whole]

theorem run_shortEscape (stack : List Frame) (content : Content) {letter c : Char}
    (other : letter ≠ 'u') (known : escaped? letter = some c) :
    run ⟨stack, .text content⟩ ['\\', letter] =
      some ⟨stack, .text (content ++ [.scalar c])⟩ := by
  have ends : step ⟨stack, .escape content⟩ letter =
      some ⟨stack, .text (content ++ [.scalar c])⟩ := by
    simp [step, other, known]
  rw [run_cons, step_escape, Option.bind_some, run_cons, ends]
  rfl

theorem run_raw (stack : List Frame) (content : Content) {c : Char} (quote : c ≠ '"')
    (backslash : c ≠ '\\') (visible : 0x20 ≤ c.toNat) :
    run ⟨stack, .text content⟩ [c] = some ⟨stack, .text (content ++ [.scalar c])⟩ := by
  have adds : step ⟨stack, .text content⟩ c = some ⟨stack, .text (content ++ [.scalar c])⟩ := by
    simp [step, quote, backslash, Nat.not_lt.mpr visible]
  rw [run_cons, adds]
  rfl

-- Any character of the basic plane may be escaped by its code.
theorem run_code (stack : List Frame) (content : Content) {c : Char} (basic : c.toNat < 0x10000) :
    run ⟨stack, .text content⟩ (unicodeEscape c.toNat) =
      some ⟨stack, .text (content ++ [.scalar c])⟩ := by
  rw [run_unicodeEscape _ _ basic, addUnit_scalar]

end Json
