import VmDeploy.Inventory.Manifest

/-! The key file, as `load_key` of the client and `LoadKey` of the service read it. -/

set_option autoImplicit false

open Effects Python

namespace VmDeploy.Inventory

/-- The errors of `LoadKey` for a file that could be read. -/
inductive KeyFileError where
  | notBase64 (path cause : String)
  | keyFileLength (path : String) (count : Nat)
  deriving DecidableEq, Repr

def KeyFileError.text : KeyFileError → String
  | .notBase64 path cause => s!"inventory key at {path} is not valid base64: {cause}"
  | .keyFileLength path count =>
      s!"inventory key at {path} decodes to {count} bytes, expected {keyBytes}"

def serviceKeyOf (texts : GoTexts) (path : String) (raw : Bytes) : Except KeyFileError Bytes :=
  match decodeString (Golang.trimSpace raw) with
  | none => .error (.notBase64 path (texts.corruptInput (Golang.trimSpace raw)))
  | some key => if key.length ≠ keyBytes then .error (.keyFileLength path key.length) else .ok key

/-- `_encode_key`: the bytes that `deploy_service` puts on the station. -/
def encodeKey (key : Bytes) : Bytes :=
  Base64.encode key ++ [10]

def pySpace (byte : UInt8) : Bool :=
  isSpace (Char.ofNat byte.toNat)

def goSpace (byte : UInt8) : Bool :=
  Golang.isSpace (Char.ofUInt8 byte)

/-- The separators U+001C to U+001F, white space to `str.strip` alone. -/
def separator (byte : UInt8) : Bool :=
  28 ≤ byte && byte ≤ 31

def SpellsKey (text key : Bytes) : Prop :=
  Base64.decode text = some key ∧ key.length = keyBytes

def Framed (space : UInt8 → Bool) (content key : Bytes) : Prop :=
  ∃ before text after, content = before ++ text ++ after ∧ SpellsKey text key ∧
    (∀ byte ∈ before, byte.toNat < 128 ∧ space byte = true) ∧
    ∀ byte ∈ after, byte.toNat < 128 ∧ space byte = true

theorem decode_alphabet {text bytes : Bytes} (decodes : Base64.decode text = some bytes) :
    ∀ char ∈ text, (∃ value < 64, Base64.symbol value = char) ∨ char = Base64.pad := by
  have known : ∀ {char : UInt8} {value : Nat}, Base64.value? char = some value →
      ∃ value < 64, Base64.symbol value = char := by
    intro char value found
    obtain ⟨same, small⟩ := Base64.symbol_of_value found
    exact ⟨value, small, same⟩
  induction text using Base64.decode.induct generalizing bytes with
  | case1 => exact fun _ none => absurd none List.not_mem_nil
  | case2 w x y z rest ih =>
    simp only [Base64.decode, Option.bind_eq_bind, Option.bind_eq_some_iff] at decodes
    obtain ⟨p, first, q, second, decodes⟩ := decodes
    simp only [List.forall_mem_cons]
    refine ⟨.inl (known first), .inl (known second), ?_⟩
    split at decodes
    · next padded =>
      split at decodes
      · next last =>
        obtain ⟨rfl, rfl⟩ := last
        exact ⟨.inr padded, .inr rfl, fun _ none => absurd none List.not_mem_nil⟩
      · cases decodes
    · simp only [Option.bind_eq_some_iff] at decodes
      obtain ⟨r, third, decodes⟩ := decodes
      refine ⟨.inl (known third), ?_⟩
      split at decodes
      · next padded =>
        split at decodes
        · next last =>
          subst last
          exact ⟨.inr padded, fun _ none => absurd none List.not_mem_nil⟩
        · cases decodes
      · simp only [Option.bind_eq_some_iff] at decodes
        obtain ⟨s, fourth, later, reads, -⟩ := decodes
        exact ⟨.inl (known fourth), ih reads⟩
  | case3 text short long =>
    rw [Base64.decode] at decodes
    · cases decodes
    · exact short
    · exact long

-- What both readers make of single bytes.
theorem byte_table :
    (∀ value : Fin 64, (Base64.symbol value).toNat < 128 ∧
      pySpace (Base64.symbol value) = false ∧ goSpace (Base64.symbol value) = false ∧
      Base64.symbol value ≠ 10 ∧ Base64.symbol value ≠ 13) ∧
    (∀ code : Fin 128,
      pySpace (UInt8.ofNat code) = (goSpace (UInt8.ofNat code) || separator (UInt8.ofNat code)) ∧
      (Char.ofNat (UInt8.ofNat code).toNat = '\r' → UInt8.ofNat code = 13) ∧
      UInt8.ofNat (Char.ofNat (UInt8.ofNat code).toNat).toNat = UInt8.ofNat code) ∧
    ∀ code : Fin 256, separator (UInt8.ofNat code) = true →
      goSpace (UInt8.ofNat code) = false ∧ UInt8.ofNat code ≠ 10 ∧ UInt8.ofNat code ≠ 13 := by
  decide +kernel

-- A character of base64 is visible ASCII to both readers.
theorem visible_char {char : UInt8}
    (member : (∃ value < 64, Base64.symbol value = char) ∨ char = Base64.pad) :
    char.toNat < 128 ∧ pySpace char = false ∧ goSpace char = false ∧ char ≠ 10 ∧ char ≠ 13 := by
  obtain ⟨value, small, rfl⟩ | rfl := member
  · exact byte_table.1 ⟨value, small⟩
  · decide

-- White space to the client is white space to the service, or a separator.
theorem pySpace_ascii {byte : UInt8} (ascii : byte.toNat < 128) :
    pySpace byte = (goSpace byte || separator byte) := by
  have here := (byte_table.2.1 ⟨byte.toNat, ascii⟩).1
  simpa only [UInt8.ofNat_toNat] using here

theorem separator_kept {byte : UInt8} (separates : separator byte = true) :
    goSpace byte = false ∧ byte ≠ 10 ∧ byte ≠ 13 := by
  have here := byte_table.2.2 ⟨byte.toNat, byte.toNat_lt⟩
  simp only [UInt8.ofNat_toNat] at here
  exact here separates

section Client

theorem newlines_eq_nil {text : Text} : universalNewlines text = [] ↔ text = [] := by
  cases text using universalNewlines.fun_cases <;> simp [universalNewlines]

theorem newlines_carriage {rest : Text} (alone : ∀ more, rest = '\n' :: more → False) :
    universalNewlines ('\r' :: rest) = '\n' :: universalNewlines rest := by
  rw [universalNewlines]
  exact alone

theorem newlines_cons {c : Char} (plain : c ≠ '\r') (rest : Text) :
    universalNewlines (c :: rest) = c :: universalNewlines rest := by
  rw [universalNewlines]
  · rintro - same
    exact absurd same plain
  · intro same
    exact absurd same plain

theorem dropWhile_newlines (text : Text) :
    (universalNewlines text).dropWhile isSpace = universalNewlines (text.dropWhile isSpace) := by
  have feed : isSpace '\n' = true := by decide
  have carriage : isSpace '\r' = true := by decide
  induction text using universalNewlines.induct with
  | case1 rest ih => simp [universalNewlines, feed, carriage, ih]
  | case2 rest alone ih =>
    rw [newlines_carriage alone, List.dropWhile_cons_of_pos feed,
      List.dropWhile_cons_of_pos carriage, ih]
  | case3 c rest pair alone ih =>
    have plain : c ≠ '\r' := alone
    rw [newlines_cons plain]
    by_cases gone : isSpace c = true
    · rw [List.dropWhile_cons_of_pos gone, List.dropWhile_cons_of_pos gone, ih]
    · rw [List.dropWhile_cons_of_neg gone, List.dropWhile_cons_of_neg gone, newlines_cons plain]
  | case4 => rfl

theorem rdropWhile_newlines (text : Text) :
    (universalNewlines text).rdropWhile isSpace = universalNewlines (text.rdropWhile isSpace) := by
  have feed : isSpace '\n' = true := by decide
  have carriage : isSpace '\r' = true := by decide
  induction text using universalNewlines.induct with
  | case1 rest ih =>
    rw [universalNewlines, Trim.rdropWhile_cons, ih, Trim.rdropWhile_cons '\r',
      Trim.rdropWhile_cons '\n']
    by_cases empty : rest.rdropWhile isSpace = []
    · simp [empty, feed, carriage, universalNewlines]
    · simp [empty, newlines_eq_nil, universalNewlines]
  | case2 rest alone ih =>
    rw [newlines_carriage alone, Trim.rdropWhile_cons, ih, Trim.rdropWhile_cons '\r']
    by_cases empty : rest.rdropWhile isSpace = []
    · simp [empty, feed, carriage, universalNewlines]
    · have still : ∀ more, rest.rdropWhile isSpace = '\n' :: more → False := by
        intro more same
        obtain ⟨gone, whole⟩ := List.rdropWhile_prefix isSpace (l := rest)
        rw [same] at whole
        exact alone _ whole.symm
      rw [if_neg (mt newlines_eq_nil.mp empty), if_neg empty, newlines_carriage still]
  | case3 c rest pair alone ih =>
    have plain : c ≠ '\r' := alone
    rw [newlines_cons plain, Trim.rdropWhile_cons, ih, Trim.rdropWhile_cons c]
    by_cases empty : rest.rdropWhile isSpace = []
    · by_cases gone : isSpace c = true <;>
        simp [empty, gone, universalNewlines, newlines_cons plain]
    · simp [empty, newlines_eq_nil, newlines_cons plain]
  | case4 => rfl

theorem strip_newlines (text : Text) :
    strip (universalNewlines text) = universalNewlines (strip text) := by
  have spelled : ∀ text, strip text = (text.dropWhile isSpace).rdropWhile isSpace := fun _ => rfl
  rw [spelled, spelled, dropWhile_newlines, rdropWhile_newlines]

theorem newlines_unchanged {text : Text} (plain : '\r' ∉ text) : universalNewlines text = text := by
  induction text with
  | nil => rfl
  | cons c rest ih =>
    rw [List.mem_cons, not_or] at plain
    rw [newlines_cons (Ne.symm plain.1), ih plain.2]

theorem newlines_feed {text : Text} (carriage : '\r' ∈ text) : '\n' ∈ universalNewlines text := by
  induction text using universalNewlines.induct with
  | case1 rest ih => simp [universalNewlines]
  | case2 rest alone ih => simp [newlines_carriage alone]
  | case3 c rest pair alone ih =>
    have plain : c ≠ '\r' := alone
    rw [newlines_cons plain]
    exact List.mem_cons_of_mem _ (ih ((List.mem_cons.mp carriage).resolve_left (Ne.symm plain)))
  | case4 => cases carriage

variable {py : Interpreter} {path : String} {content text key : Bytes}

-- Excess padding never follows a key, whose last quantum is short.
theorem spellsKey_iff (ignoresExcess : Bool) :
    (a2bBase64 ignoresExcess text).toOption = some key ∧ key.length = keyBytes ↔
      SpellsKey text key := by
  cases regular : ignoresExcess && excessPadded text with
  | false => rw [a2bBase64_eq_decode regular, SpellsKey]
  | true =>
    have excess := (Bool.and_eq_true_iff.mp regular).2
    have never : ∀ {core rest : Bytes}, text = core ++ rest → ¬ SpellsKey core key := by
      rintro core rest rfl ⟨decodes, long⟩
      have whole := excess_whole excess decodes
      rw [long] at whole
      exact absurd whole (by decide)
    constructor
    · rintro ⟨reads, long⟩
      rcases a2bBase64_reads reads with decodes | ⟨-, core, count, parts, decodes⟩
      · exact ⟨decodes, long⟩
      · exact absurd ⟨decodes, long⟩ (never parts)
    · exact fun spells => absurd spells (never (List.append_nil text).symm)

def clientText (content : Bytes) : Bytes :=
  (strip (universalNewlines (content.map fun byte => Char.ofNat byte.toNat))).map
    fun c => UInt8.ofNat c.toNat

theorem clientText_eq (content : Bytes) :
    clientText content =
      (universalNewlines ((Trim.trim pySpace content).map fun byte => Char.ofNat byte.toNat)).map
        fun c => UInt8.ofNat c.toNat := by
  have trimmed : strip (content.map fun byte => Char.ofNat byte.toNat) =
      (Trim.trim pySpace content).map fun byte => Char.ofNat byte.toNat := Trim.trim_map _ _
  rw [clientText, strip_newlines, trimmed]

theorem clientText_plain (ascii : ∀ byte ∈ Trim.trim pySpace content, byte.toNat < 128)
    (plain : 13 ∉ Trim.trim pySpace content) : clientText content = Trim.trim pySpace content := by
  have byByte : ∀ byte ∈ Trim.trim pySpace content, (Char.ofNat byte.toNat = '\r' → byte = 13) ∧
      UInt8.ofNat (Char.ofNat byte.toNat).toNat = byte := by
    intro byte member
    have here := (byte_table.2.1 ⟨byte.toNat, ascii byte member⟩).2
    simpa only [UInt8.ofNat_toNat] using here
  rw [clientText_eq, newlines_unchanged, List.map_map]
  · exact (List.map_congr_left fun byte member => (byByte byte member).2).trans (List.map_id _)
  · intro carriage
    obtain ⟨byte, member, same⟩ := List.mem_map.mp carriage
    exact plain ((byByte byte member).1 same ▸ member)

theorem keyOf_toOption : (keyOf py path content).toOption = some key ↔
    (∀ byte ∈ content, byte.toNat < 128) ∧
      (a2bBase64 py.ignoresExcess (clientText content)).toOption = some key ∧
        key.length = keyBytes := by
  have ascii : (∀ byte ∈ content, byte.toNat < 128) ↔
      content.findIdx? (fun byte => decide (128 ≤ byte)) = none := by
    rw [List.findIdx?_eq_none_iff]
    refine forall₂_congr fun byte _ => ?_
    rw [decide_eq_false_iff_not, UInt8.not_le]
    rfl
  rw [ascii]
  cases place : content.findIdx? (fun byte => decide (128 ≤ byte)) with
  | some place' => simp [keyOf, asciiText, place, Except.toOption]
  | none =>
    have text : asciiText content = .ok (content.map fun byte => Char.ofNat byte.toNat) := by
      rw [asciiText, place]
    cases decoded : a2bBase64 py.ignoresExcess (clientText content) with
    | error exc =>
      rw [clientText] at decoded
      simp [keyOf, text, decoded, Except.toOption]
    | ok raw =>
      rw [clientText] at decoded
      by_cases strong : raw.length = keyBytes
      · simp only [keyOf, text, decoded, strong, Except.toOption, not_true, if_false,
          Option.some.injEq, true_and, ne_eq]
        constructor
        · rintro rfl
          exact ⟨rfl, strong⟩
        · exact fun both => both.1
      · simp only [keyOf, text, decoded, strong, Except.toOption, not_false_iff, if_true,
          Option.some.injEq, true_and, ne_eq]
        constructor
        · intro none
          cases none
        · rintro ⟨rfl, long⟩
          exact absurd long strong

-- The client reads a key where it stands between white space of its own.
theorem keyOf_iff : (keyOf py path content).toOption = some key ↔ Framed pySpace content key := by
  rw [keyOf_toOption, spellsKey_iff]
  obtain ⟨before, after, parts, front, back⟩ := Trim.trim_splits pySpace content
  have within : ∀ byte ∈ Trim.trim pySpace content, byte ∈ content := by
    intro byte member
    rw [parts]
    exact List.mem_append_left _ (List.mem_append_right _ member)
  have outside : (∀ byte ∈ before, byte ∈ content) ∧ ∀ byte ∈ after, byte ∈ content := by
    rw [parts]
    exact ⟨fun byte member => List.mem_append_left _ (List.mem_append_left _ member),
      fun byte member => List.mem_append_right _ member⟩
  constructor
  · rintro ⟨ascii, spells⟩
    have plain : 13 ∉ Trim.trim pySpace content := by
      intro carriage
      have feed : '\n' ∈ universalNewlines
          ((Trim.trim pySpace content).map fun byte => Char.ofNat byte.toNat) :=
        newlines_feed (List.mem_map.mpr ⟨13, carriage, rfl⟩)
      have broken : 10 ∈ clientText content := by
        rw [clientText_eq]
        exact List.mem_map.mpr ⟨'\n', feed, rfl⟩
      exact (visible_char (decode_alphabet spells.1 10 broken)).2.2.2.1 rfl
    rw [clientText_plain (fun byte member => ascii byte (within byte member)) plain] at spells
    exact ⟨before, _, after, parts, spells,
      fun byte member => ⟨ascii byte (outside.1 byte member), front byte member⟩,
      fun byte member => ⟨ascii byte (outside.2 byte member), back byte member⟩⟩
  · rintro ⟨before, text, after, rfl, spells, front, back⟩
    have visible := fun byte member => visible_char (decode_alphabet spells.1 byte member)
    have trimmed : Trim.trim pySpace (before ++ text ++ after) = text :=
      Trim.trim_framed (fun byte member => (front byte member).2)
        (fun byte member => (visible byte member).2.1) fun byte member => (back byte member).2
    refine ⟨?_, ?_⟩
    · simp only [List.forall_mem_append]
      exact ⟨⟨fun byte member => (front byte member).1, fun byte member => (visible byte member).1⟩,
        fun byte member => (back byte member).1⟩
    · rw [clientText_plain, trimmed]
      · exact spells
      · rw [trimmed]
        exact fun byte member => (visible byte member).1
      · rw [trimmed]
        exact fun carriage => (visible 13 carriage).2.2.2.2 rfl

end Client

section Both

variable {py : Interpreter} {texts : GoTexts} {path target : String} {content text key : Bytes}

def unbroken (text : Bytes) : Bytes :=
  text.filter fun byte => byte ≠ 10 && byte ≠ 13

theorem serviceKeyOf_iff : (serviceKeyOf texts path content).toOption = some key ↔
    SpellsKey (unbroken (Golang.trimSpace content)) key := by
  rw [serviceKeyOf, SpellsKey, unbroken, ← decodeString]
  cases decodeString (Golang.trimSpace content) with
  | none => simp [Except.toOption]
  | some raw =>
    by_cases strong : raw.length = keyBytes
    · simp only [strong, Except.toOption, not_true, if_false, Option.some.injEq, ne_eq]
      constructor
      · rintro rfl
        exact ⟨rfl, strong⟩
      · exact fun both => both.1
    · simp only [strong, Except.toOption, not_false_iff, if_true, Option.some.injEq, ne_eq]
      constructor
      · intro none
        cases none
      · rintro ⟨rfl, long⟩
        exact absurd long strong

def KeysAgree (client : Except PyError Bytes) (service : Except KeyFileError Bytes) : Prop :=
  client.toOption = service.toOption ∧ ∀ key ∈ client.toOption, key.length = keyBytes

/-- Among the white space around a key is a separator, which only the client strips. -/
def Separated (content : Bytes) : Prop :=
  (∃ key, Framed pySpace content key) ∧ ∃ byte ∈ content, separator byte = true

/-- In a key are line breaks, or around it white space beyond ASCII; only the service
reads over these. -/
def Broken (content : Bytes) : Prop :=
  (∃ key, SpellsKey (unbroken (Golang.trimSpace content)) key) ∧
    (10 ∈ Golang.trimSpace content ∨ 13 ∈ Golang.trimSpace content ∨
      ∃ byte ∈ content, 128 ≤ byte.toNat)

theorem unbroken_eq (plain : 10 ∉ text ∧ 13 ∉ text) : unbroken text = text := by
  rw [unbroken, List.filter_eq_self]
  intro byte member
  have feed : byte ≠ 10 := fun same => plain.1 (same ▸ member)
  have carriage : byte ≠ 13 := fun same => plain.2 (same ▸ member)
  simp [feed, carriage]

theorem framed_ascii {space : UInt8 → Bool} (framed : Framed space content key) :
    ∀ byte ∈ content, byte.toNat < 128 := by
  obtain ⟨before, text, after, rfl, spells, front, back⟩ := framed
  simp only [List.forall_mem_append]
  exact ⟨⟨fun byte member => (front byte member).1,
    fun byte member => (visible_char (decode_alphabet spells.1 byte member)).1⟩,
    fun byte member => (back byte member).1⟩

-- Where no separator is about, the service trims what the client strips.
theorem framed_service (framed : Framed pySpace content key)
    (none : ∀ byte ∈ content, separator byte = false) :
    SpellsKey (unbroken (Golang.trimSpace content)) key ∧
      10 ∉ Golang.trimSpace content ∧ 13 ∉ Golang.trimSpace content := by
  have ascii := framed_ascii framed
  obtain ⟨before, text, after, rfl, spells, front, back⟩ := framed
  have visible := fun byte member => visible_char (decode_alphabet spells.1 byte member)
  simp only [List.forall_mem_append] at none
  have space : ∀ {byte : UInt8}, byte.toNat < 128 ∧ pySpace byte = true →
      separator byte = false → goSpace byte = true := by
    rintro byte ⟨small, space⟩ plain
    rw [pySpace_ascii small, plain, Bool.or_false] at space
    exact space
  have trimmed : Golang.trimSpace (before ++ text ++ after) = text := by
    rw [Golang.trimSpace_ascii ascii]
    exact Trim.trim_framed (fun byte member => space (front byte member) (none.1.1 byte member))
      (fun byte member => (visible byte member).2.2.1)
      fun byte member => space (back byte member) (none.2 byte member)
  have plain : 10 ∉ text ∧ 13 ∉ text :=
    ⟨fun feed => (visible 10 feed).2.2.2.1 rfl, fun carriage => (visible 13 carriage).2.2.2.2 rfl⟩
  rw [trimmed, unbroken_eq plain]
  exact ⟨spells, plain⟩

-- The service does not trim a separator, and cannot read one.
theorem service_unseparated (ascii : ∀ byte ∈ content, byte.toNat < 128)
    (spells : SpellsKey (unbroken (Golang.trimSpace content)) key) :
    ∀ byte ∈ content, separator byte = false := by
  intro byte member
  by_contra separates
  rw [Bool.not_eq_false] at separates
  obtain ⟨unspaced, feed, carriage⟩ := separator_kept separates
  obtain ⟨before, after, parts, front, back⟩ := Trim.trim_splits goSpace content
  have trimmed : Golang.trimSpace content = Trim.trim goSpace content :=
    Golang.trimSpace_ascii ascii
  rw [trimmed] at spells
  have kept : byte ∈ Trim.trim goSpace content := by
    rw [parts] at member
    rcases List.mem_append.mp member with either | late
    · rcases List.mem_append.mp either with early | inside
      · rw [front byte early] at unspaced
        cases unspaced
      · exact inside
    · rw [back byte late] at unspaced
      cases unspaced
  have inside : byte ∈ unbroken (Trim.trim goSpace content) :=
    List.mem_filter.mpr ⟨kept, by simp [feed, carriage]⟩
  obtain ⟨small, visible, -⟩ := visible_char (decode_alphabet spells.1 byte inside)
  rw [pySpace_ascii small, separates, Bool.or_true] at visible
  cases visible

theorem service_framed (ascii : ∀ byte ∈ content, byte.toNat < 128)
    (plain : 10 ∉ Golang.trimSpace content ∧ 13 ∉ Golang.trimSpace content)
    (spells : SpellsKey (unbroken (Golang.trimSpace content)) key) : Framed pySpace content key := by
  rw [unbroken_eq plain, Golang.trimSpace_ascii ascii] at spells
  obtain ⟨before, after, parts, front, back⟩ := Trim.trim_splits goSpace content
  have space : ∀ {byte : UInt8}, byte ∈ content → goSpace byte = true →
      byte.toNat < 128 ∧ pySpace byte = true := by
    intro byte member space
    exact ⟨ascii byte member, by rw [pySpace_ascii (ascii byte member), space, Bool.true_or]⟩
  refine ⟨before, _, after, parts, spells, fun byte member => ?_, fun byte member => ?_⟩
  · refine space ?_ (front byte member)
    rw [parts]
    exact List.mem_append_left _ (List.mem_append_left _ member)
  · refine space ?_ (back byte member)
    rw [parts]
    exact List.mem_append_right _ member

-- The readers of a file agree but where one of them alone reads a key.
theorem same_key_iff :
    (keyOf py path content).toOption = (serviceKeyOf texts target content).toOption ↔
      ¬ Separated content ∧ ¬ Broken content := by
  constructor
  · intro same
    constructor
    · rintro ⟨⟨key, framed⟩, byte, member, separates⟩
      have service : (keyOf py path content).toOption = some key := keyOf_iff.mpr framed
      rw [same, serviceKeyOf_iff] at service
      rw [service_unseparated (framed_ascii framed) service byte member] at separates
      cases separates
    · rintro ⟨⟨key, spells⟩, odd⟩
      have client : (serviceKeyOf texts target content).toOption = some key :=
        serviceKeyOf_iff.mpr spells
      rw [← same, keyOf_iff] at client
      have ascii := framed_ascii client
      obtain ⟨-, feed, carriage⟩ := framed_service client (service_unseparated ascii spells)
      rcases odd with within | within | ⟨byte, member, large⟩
      · exact feed within
      · exact carriage within
      · exact absurd (ascii byte member) (Nat.not_lt.mpr large)
  · rintro ⟨joined, whole⟩
    apply Option.ext
    intro key
    rw [keyOf_iff, serviceKeyOf_iff]
    constructor
    · intro framed
      have none : ∀ byte ∈ content, separator byte = false := by
        intro byte member
        by_contra separates
        exact joined ⟨⟨key, framed⟩, byte, member, Bool.not_eq_false _ ▸ separates⟩
      exact (framed_service framed none).1
    · intro spells
      have ordinary := fun odd => whole ⟨⟨key, spells⟩, odd⟩
      have ascii : ∀ byte ∈ content, byte.toNat < 128 :=
        fun byte member => Nat.not_le.mp fun large => ordinary (.inr (.inr ⟨byte, member, large⟩))
      exact service_framed ascii
        ⟨fun feed => ordinary (.inl feed), fun carriage => ordinary (.inr (.inl carriage))⟩ spells

theorem keysAgree_iff :
    KeysAgree (keyOf py path content) (serviceKeyOf texts target content) ↔
      ¬ Separated content ∧ ¬ Broken content := by
  rw [KeysAgree, same_key_iff, and_iff_left_iff_imp]
  rintro - key read
  obtain ⟨before, text, after, -, spells, -⟩ := keyOf_iff.mp read
  exact spells.2

def BothRead (py : Interpreter) (texts : GoTexts) (path target : String) (content key : Bytes) :
    Prop :=
  keyOf py path content = .ok key ∧ serviceKeyOf texts target content = .ok key

theorem ok_of_toOption {E A : Type} {result : Except E A} {value : A}
    (returns : result.toOption = some value) : result = .ok value := by
  cases result with
  | error failure => cases returns
  | ok other => exact congrArg _ (Option.some.inj returns)

-- A key between ordinary white space.
theorem bothRead_framed (framed : Framed goSpace content key) :
    BothRead py texts path target content key := by
  have ascii := framed_ascii framed
  obtain ⟨before, text, after, parts, spells, front, back⟩ := framed
  have wider : ∀ {byte : UInt8}, byte.toNat < 128 ∧ goSpace byte = true →
      byte.toNat < 128 ∧ pySpace byte = true := by
    rintro byte ⟨small, space⟩
    exact ⟨small, by rw [pySpace_ascii small, space, Bool.true_or]⟩
  have client : Framed pySpace content key := ⟨before, text, after, parts, spells,
    fun byte member => wider (front byte member), fun byte member => wider (back byte member)⟩
  have none : ∀ byte ∈ content, separator byte = false := by
    intro byte member
    by_contra separates
    rw [Bool.not_eq_false] at separates
    have unspaced := (separator_kept separates).1
    rw [parts] at member
    rcases List.mem_append.mp member with either | late
    · rcases List.mem_append.mp either with early | inside
      · rw [(front byte early).2] at unspaced
        cases unspaced
      · obtain ⟨small, visible, -⟩ := visible_char (decode_alphabet spells.1 byte inside)
        rw [pySpace_ascii small, separates, Bool.or_true] at visible
        cases visible
    · rw [(back byte late).2] at unspaced
      cases unspaced
  exact ⟨ok_of_toOption (keyOf_iff.mpr client),
    ok_of_toOption (serviceKeyOf_iff.mpr (framed_service client none).1)⟩

theorem bothRead_encode (strong : key.length = keyBytes) :
    BothRead py texts path target (Base64.encode key) key :=
  bothRead_framed ⟨[], _, [], by simp, ⟨Base64.decode_encode key, strong⟩, by simp, by simp⟩

theorem bothRead_encodeKey (strong : key.length = keyBytes) :
    BothRead py texts path target (encodeKey key) key := by
  refine bothRead_framed ⟨[], _, [10], rfl, ⟨Base64.decode_encode key, strong⟩, by simp, ?_⟩
  intro byte member
  obtain rfl := List.mem_singleton.mp member
  decide

/-- Both readers return the key from the file that is written, if one is. -/
def WritesKey (py : Interpreter) (texts : GoTexts) (path target : String) (key : Bytes) :
    FileOp → Prop
  | .writeBytes _ content => BothRead py texts path target content key
  | _ => True

theorem writeKeyFile_writes (strong : key.length = keyBytes) :
    (writeKeyFile key path).Only (WritesKey py texts path target key) := by
  have translated : ∀ (doing : String) (reply : Except String Unit),
      (orInventoryError doing reply).Only (WritesKey py texts path target key) := by
    intro doing reply
    cases reply <;> trivial
  rw [writeKeyFile, if_neg (not_not.mpr strong)]
  refine Prog.Only.bind ⟨trivial, fun _ => trivial⟩ fun made => ?_
  refine Prog.Only.bind (translated _ made) fun _ => ?_
  refine Prog.Only.bind ⟨bothRead_encode strong, fun _ => trivial⟩ fun written => ?_
  refine Prog.Only.bind (translated _ written) fun _ => ?_
  exact Prog.Only.bind ⟨trivial, fun _ => trivial⟩ fun _ => trivial

end Both

/-- Both readers of every file, and of every file that the client writes or uploads. -/
theorem key_files_agree (py : Interpreter) (texts : GoTexts) (path target : String) :
    (∀ content, KeysAgree (keyOf py path content) (serviceKeyOf texts target content) ↔
      ¬ Separated content ∧ ¬ Broken content) ∧
    ∀ key : { bytes : Bytes // bytes.length = keyBytes },
      (writeKeyFile key path).Only (WritesKey py texts path target key) ∧
        BothRead py texts path target (encodeKey key) key :=
  ⟨fun _ => keysAgree_iff, fun key => ⟨writeKeyFile_writes key.2, bothRead_encodeKey key.2⟩⟩

def strangeKeyFiles : List Bytes :=
  let text := Base64.encode exampleKey
  [text.take 22 ++ 10 :: text.drop 22, text ++ [28], text ++ [0xC2, 0xA0]]

theorem strange_keys_disagree : ¬ ∃ content ∈ strangeKeyFiles,
    KeysAgree (keyOf exampleInterpreter "inventory.key" content)
      (serviceKeyOf exampleTexts "inventory.key" content) := by
  have differ : ∀ content ∈ strangeKeyFiles,
      (keyOf exampleInterpreter "inventory.key" content).toOption ≠
        (serviceKeyOf exampleTexts "inventory.key" content).toOption := by decide
  rintro ⟨content, member, agree⟩
  exact differ content member agree.1

end VmDeploy.Inventory
