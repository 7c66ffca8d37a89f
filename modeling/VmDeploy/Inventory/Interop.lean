import VmDeploy.Inventory.Client
import VmDeploy.Inventory.Datastore

/-! What either language writes, both read. -/

set_option autoImplicit false

namespace VmDeploy.Inventory

open Json Python

theorem asciiEscape_escapes : Escapes asciiEscape := by
  intro c stack content
  unfold asciiEscape
  split_ifs with special feed carriage tab form back visible basic
  · rcases special with rfl | rfl
    · exact run_shortEscape stack content (by decide) rfl
    · exact run_shortEscape stack content (by decide) rfl
  · exact feed ▸ run_shortEscape stack content (by decide) rfl
  · exact carriage ▸ run_shortEscape stack content (by decide) rfl
  · exact tab ▸ run_shortEscape stack content (by decide) rfl
  · exact form ▸ run_shortEscape stack content (by decide) rfl
  · exact back ▸ run_shortEscape stack content (by decide) rfl
  · obtain ⟨quote, backslash⟩ := not_or.mp special
    exact run_raw stack content quote backslash visible.1
  · exact run_code stack content basic
  · exact run_surrogatePair stack content (Nat.le_of_not_lt basic)

theorem htmlEscape_escapes : Escapes htmlEscape := by
  intro c stack content
  unfold htmlEscape
  split_ifs with special back form feed carriage tab markup separator
  · rcases special with rfl | rfl
    · exact run_shortEscape stack content (by decide) rfl
    · exact run_shortEscape stack content (by decide) rfl
  · exact back ▸ run_shortEscape stack content (by decide) rfl
  · exact form ▸ run_shortEscape stack content (by decide) rfl
  · exact feed ▸ run_shortEscape stack content (by decide) rfl
  · exact carriage ▸ run_shortEscape stack content (by decide) rfl
  · exact tab ▸ run_shortEscape stack content (by decide) rfl
  · refine run_code stack content ?_
    rcases markup with control | rfl | rfl | rfl
    · omega
    all_goals decide
  · refine run_code stack content ?_
    rcases separator with rfl | rfl <;> decide
  · obtain ⟨quote, backslash⟩ := not_or.mp special
    exact run_raw stack content quote backslash (Nat.le_of_not_lt (not_or.mp markup).1)

section Fields

variable {order : List Field}

/-- The members a writer makes of a record, in its own order. -/
def written (order : List Field) (record : Record String) : List (Content × Value) :=
  order.map fun field => (pyText field.name, .string (pyText (record.get field)))

theorem objectValue_written (order : List Field) (record : Record String) :
    objectValue (order.map fun field => (field.name.toList, (record.get field).toList)) =
      .object (written order record) := by
  rw [objectValue, List.map_map]
  rfl

theorem goText_plain (text : List Char) : goText (plain text) = text := by
  rw [goText, plain, List.map_map]
  exact List.map_id text

theorem fieldOf_name (field : Field) : fieldOf field.name.toList = some field := by
  cases field <;> decide

theorem unmarshalMember_written (start record : Record String) (field : Field) :
    unmarshalMember start (pyText field.name, .string (pyText (record.get field))) =
      some (start.set field (record.get field)) := by
  simp only [unmarshalMember, pyText, goText_plain, fieldOf_name, String.ofList_toList]

theorem unmarshal_members (start record : Record String) (order : List Field) :
    ∃ result, (written order record).foldlM unmarshalMember start = some result ∧
      ∀ field, result.get field = if field ∈ order then record.get field else start.get field := by
  induction order generalizing start with
  | nil => exact ⟨start, rfl, by simp⟩
  | cons field order ih =>
    obtain ⟨result, folds, gets⟩ := ih (start.set field (record.get field))
    refine ⟨result, ?_, ?_⟩
    · rw [written, List.map_cons, List.foldlM_cons, unmarshalMember_written]
      exact folds
    · intro other
      rw [gets other, get_set]
      by_cases later : other ∈ order
      · simp [later]
      · by_cases same : other = field <;> simp [later, same]

theorem unmarshal_written (complete : ∀ field, field ∈ order) (record : Record String) :
    unmarshalElement (.object (written order record)) = some record := by
  obtain ⟨result, folds, gets⟩ := unmarshal_members (.of fun _ => "") record order
  rw [unmarshalElement, folds]
  refine congrArg some (record_ext fun field => ?_)
  rw [gets, if_pos (complete field)]

theorem unmarshal_array (complete : ∀ field, field ∈ order) (records : List (Record String)) :
    unmarshal (.array (records.map fun record => .object (written order record))) = some records := by
  rw [unmarshal, List.mapM_map]
  induction records with
  | nil => rfl
  | cons record records ih =>
    rw [List.mapM_cons, Function.comp_apply, unmarshal_written complete, ih]
    rfl

theorem pyText_injective : Function.Injective pyText := by
  intro first second same
  have texts := congrArg goText same
  rw [pyText, pyText, goText_plain, goText_plain] at texts
  exact String.toList_inj.mp texts

def contentMembers (order : List Field) (record : Record Content) : List (Content × Value) :=
  order.map fun field => (pyText field.name, .string (record.get field))

theorem lookup_contentMembers (complete : ∀ field, field ∈ order) (record : Record Content)
    (field : Field) :
    lookup (contentMembers order record) field.name = some (.string (record.get field)) := by
  have same : ∀ other : Field,
      decide (pyText other.name = pyText field.name) = decide (other = field) := by
    intro other
    refine decide_eq_decide.mpr ⟨fun names => ?_, fun equal => equal ▸ rfl⟩
    exact name_injective (congrArg String.toList (pyText_injective names))
  have found : order.reverse.find? (fun other => decide (other = field)) = some field := by
    cases known : order.reverse.find? (fun other => decide (other = field)) with
    | none =>
      have absent := List.find?_eq_none.mp known field (List.mem_reverse.mpr (complete field))
      simp at absent
    | some other =>
      have equal := List.find?_some known
      rw [of_decide_eq_true equal]
  rw [lookup, contentMembers, ← List.map_reverse, List.find?_map]
  simp only [Function.comp_def, same, found]
  rfl

theorem fromDict_contentMembers (py : Interpreter) (complete : ∀ field, field ∈ order)
    (record : Record Content) : fromDict py (contentMembers order record) = .ok record := by
  have none : missingFields (contentMembers order record) = [] := by
    refine List.filter_eq_nil_iff.mpr fun field _ => ?_
    rw [lookup_contentMembers complete]
    simp
  rw [fromDict, none]
  simp only [lookup_contentMembers complete]
  rfl

theorem fromEntries_contentMembers (py : Interpreter) (complete : ∀ field, field ∈ order)
    (records : List (Record Content)) (index : Nat) :
    fromEntries py index (records.map fun record => .object (contentMembers order record)) =
      .ok records := by
  induction records generalizing index with
  | nil => rfl
  | cons record records ih =>
    rw [List.map_cons, fromEntries, fromDict_contentMembers py complete]
    change (fromEntries py (index + 1) _ >>= _) = _
    rw [ih]
    rfl

theorem written_eq (order : List Field) (record : Record String) :
    written order record = contentMembers order (record.map pyText) := by
  simp only [written, contentMembers, get_map]

theorem lookup_written (complete : ∀ field, field ∈ order) (record : Record String)
    (field : Field) :
    lookup (written order record) field.name = some (.string (pyText (record.get field))) := by
  rw [written_eq, lookup_contentMembers complete, get_map]

theorem fromEntries_written (py : Interpreter) (complete : ∀ field, field ∈ order)
    (records : List (Record String)) (index : Nat) :
    fromEntries py index (records.map fun record => .object (written order record)) =
      .ok (records.map (Record.map pyText)) := by
  simp only [written_eq]
  rw [← fromEntries_contentMembers py complete (records.map (Record.map pyText)) index,
    List.map_map]
  rfl

end Fields

theorem excessPadded_encode (bytes : Bytes) : excessPadded (Base64.encode bytes) = false := by
  induction bytes using Base64.encode.induct with
  | case1 a b c rest ih =>
    have mixed : (!(Base64.encode rest).isEmpty &&
        (Base64.encode rest).all (· == Base64.pad)) = false := by
      cases known : Base64.encode rest with
      | nil => rfl
      | cons char more =>
        have first := Base64.encode_head rest
        rw [known, List.head?_cons, ne_eq, Option.some_inj] at first
        simp [first]
    rw [Base64.encode, excessPadded, mixed, ih]
    simp
  | case2 a b => simp [Base64.encode, excessPadded]
  | case3 a => simp [Base64.encode, excessPadded]
  | case4 => rfl

theorem encode_visible (bytes : Bytes) : ∀ byte ∈ Base64.encode bytes,
    (byte.toNat < 128 ∧ Golang.isSpace (Char.ofUInt8 byte) = false) ∧ byte ≠ 10 ∧ byte ≠ 13 := by
  have symbols : ∀ value : Fin 64, ((Base64.symbol value).toNat < 128 ∧
      Golang.isSpace (Char.ofUInt8 (Base64.symbol value)) = false) ∧
      Base64.symbol value ≠ 10 ∧ Base64.symbol value ≠ 13 := by decide
  intro byte member
  rcases Base64.encode_alphabet bytes byte member with ⟨value, small, rfl⟩ | rfl
  · exact symbols ⟨value, small⟩
  · decide

theorem decodeString_encode (bytes : Bytes) :
    decodeString (Golang.trimSpace (Base64.encode bytes)) = some bytes := by
  have visible := encode_visible bytes
  rw [Golang.trimSpace_visible fun byte member => (visible byte member).1, decodeString,
    List.filter_eq_self.mpr, Base64.decode_encode]
  intro byte member
  simp [(visible byte member).2]

theorem a2bBase64_encode (ignoresExcess : Bool) (bytes : Bytes) :
    a2bBase64 ignoresExcess (Base64.encode bytes) = .ok bytes := by
  have regular : (ignoresExcess && excessPadded (Base64.encode bytes)) = false := by
    rw [excessPadded_encode, Bool.and_false]
  have same := a2bBase64_eq_decode regular
  rw [Base64.decode_encode] at same
  cases known : a2bBase64 ignoresExcess (Base64.encode bytes) with
  | error message =>
    rw [known] at same
    cases same
  | ok raw =>
    rw [known] at same
    exact congrArg _ (Option.some.inj same)

section Payload

variable {aead : Aead} {key nonce : Bytes}

def payload (aead : Aead) (key nonce plaintext : Bytes) : Bytes :=
  Base64.encode (nonce ++ aead.encrypt key nonce plaintext)

theorem openPayload_payload (py : Interpreter) (opens : aead.Opens) (tagged : aead.Tagged)
    (strong : key.length = keyBytes) (fresh : nonce.length = nonceBytes) (plaintext : Bytes) :
    openPayload py aead (payload aead key nonce plaintext) key = .ok plaintext := by
  have long : ¬ (nonce ++ aead.encrypt key nonce plaintext).length < nonceBytes + tagBytes := by
    rw [List.length_append, tagged, fresh]
    omega
  rw [openPayload, payload, if_neg (not_not.mpr strong), a2bBase64_encode]
  simp only
  rw [if_neg long, ← fresh, List.take_left, List.drop_left, opens key nonce plaintext strong fresh]

theorem decrypt_payload (texts : GoTexts) (opens : aead.Opens) (tagged : aead.Tagged)
    (strong : key.length = keyBytes) (fresh : nonce.length = nonceBytes) (plaintext : Bytes) :
    decrypt texts aead (payload aead key nonce plaintext) key = .ok plaintext := by
  have long : ¬ (nonce ++ aead.encrypt key nonce plaintext).length < nonceBytes + tagBytes := by
    rw [List.length_append, tagged, fresh]
    omega
  rw [decrypt, payload, if_neg (not_not.mpr strong), decodeString_encode]
  simp only
  rw [if_neg long, ← fresh, List.take_left, List.drop_left, opens key nonce plaintext strong fresh]

end Payload

section Readers

variable {aead : Aead} {key nonce : Bytes} {escape : Char → List Char} {order : List Field}

def texts (order : List Field) (record : Record String) : Fields :=
  order.map fun field => (field.name.toList, (record.get field).toList)

theorem values_texts (order : List Field) (records : List (Record String)) :
    (records.map (texts order)).map objectValue =
      records.map fun record => .object (written order record) := by
  rw [List.map_map]
  exact List.map_congr_left fun record _ => objectValue_written order record

theorem jsonUnmarshal_document (escapes : Escapes escape) (complete : ∀ field, field ∈ order)
    (records : List (Record String)) :
    jsonUnmarshal (Utf8.encode (document escape (records.map (texts order)))) = some records := by
  rw [jsonUnmarshal, Utf8.lossy_encode, read_document rfl escapes, Option.bind_some, values_texts]
  exact unmarshal_array complete records

theorem parseRecords_document (py : Interpreter) (escapes : Escapes escape)
    (complete : ∀ field, field ∈ order) (records : List (Record String)) :
    parseRecords py (Utf8.encode (document escape (records.map (texts order)))) =
      .ok (records.map (Record.map pyText)) := by
  have loads : jsonLoads py (document escape (records.map (texts order))) =
      .ok (.array (records.map fun record => .object (written order record))) := by
    have admitted := document_admitted py.nests (records.map (texts order))
    have parses := parse_document escapes (records.map (texts order))
    rw [values_texts] at admitted parses
    exact jsonLoads_ok parses admitted
  rw [parseRecords, Utf8.strict_encode]
  simp only
  rw [loads]
  exact fromEntries_written py complete records 0

theorem payload_nonempty (fresh : nonce.length = nonceBytes) (plaintext : Bytes) :
    payload aead key nonce plaintext ≠ [] := by
  intro empty
  have none := Base64.encode_injective (show _ = Base64.encode [] from empty)
  rw [(List.append_eq_nil_iff.mp none).1] at fresh
  cases fresh

theorem readDatastore_payload (opens : aead.Opens) (tagged : aead.Tagged) (goTexts : GoTexts)
    (strong : key.length = keyBytes) (fresh : nonce.length = nonceBytes)
    (escapes : Escapes escape) (complete : ∀ field, field ∈ order) (records : List (Record String)) :
    readDatastore goTexts aead (payload aead key nonce
      (Utf8.encode (document escape (records.map (texts order))))) key = .ok records := by
  rw [readDatastore, if_neg (payload_nonempty fresh _),
    decrypt_payload goTexts opens tagged strong fresh]
  simp only [bind, Except.bind, jsonUnmarshal_document escapes complete]

-- A payload of records, under any such escaping and order of the fields, reads as
-- these records on both sides.
theorem payload_reads (opens : aead.Opens) (tagged : aead.Tagged) (py : Interpreter)
    (goTexts : GoTexts) (strong : key.length = keyBytes) (fresh : nonce.length = nonceBytes)
    (escapes : Escapes escape) (complete : ∀ field, field ∈ order) (records : List (Record String)) :
    let blob := payload aead key nonce
      (Utf8.encode (document escape (records.map (texts order))))
    readDatastore goTexts aead blob key = .ok records ∧
      decryptRecords py aead blob key = .ok (records.map (Record.map pyText)) := by
  intro blob
  constructor
  · exact readDatastore_payload opens tagged goTexts strong fresh escapes complete records
  · rw [decryptRecords, openPayload_payload py opens tagged strong fresh]
    exact parseRecords_document py escapes complete records

end Readers

theorem mem_sortedFields (field : Field) : field ∈ sortedFields := by
  cases field <;> decide

/-- Each side writes payloads that both sides read as the records that were written. -/
theorem formats_interoperate {aead : Aead} (opens : aead.Opens) (tagged : aead.Tagged)
    (py : Interpreter) (goTexts : GoTexts) {key nonce : Bytes} (strong : key.length = keyBytes)
    (fresh : nonce.length = nonceBytes) (records : List (Record String)) :
    (∃ blob, encryptRecords aead records key nonce = .ok blob ∧
      readDatastore goTexts aead blob key = .ok records ∧
      decryptRecords py aead blob key = .ok (records.map (Record.map pyText))) ∧
    (∃ blob, sealRecords aead records key nonce = .ok blob ∧
      readDatastore goTexts aead blob key = .ok records ∧
      decryptRecords py aead blob key = .ok (records.map (Record.map pyText))) := by
  constructor
  · refine ⟨_, if_neg (not_not.mpr strong), ?_⟩
    exact payload_reads opens tagged py goTexts strong fresh asciiEscape_escapes
      mem_sortedFields records
  · refine ⟨_, if_neg (not_not.mpr strong), ?_⟩
    exact payload_reads opens tagged py goTexts strong fresh htmlEscape_escapes mem_fields records

def exampleKey : Bytes :=
  (List.range 32).map UInt8.ofNat

def exampleNonce : Bytes :=
  (List.range 12).map UInt8.ofNat

def exampleRecord : Record String where
  hostname := "nœud<1>"
  role := "jump"
  ipv4 := ""
  ipv6 := ""
  status := ""
  statusTimestamp := ""
  state := ""
  stateTimestamp := ""

def clientSample : Sample where
  key := exampleKey
  nonce := exampleNonce
  plaintext := Utf8.encode (document asciiEscape [toDict exampleRecord])
  sealed :=
    [28, 8, 246, 59, 190, 239, 226, 59, 173, 97, 181, 227, 222, 154, 12, 3, 226, 187, 226, 22,
      202, 91, 125, 18, 100, 18, 213, 180, 40, 90, 117, 214, 61, 33, 144, 222, 131, 203, 50, 184,
      84, 132, 93, 132, 248, 241, 28, 26, 212, 121, 66, 175, 118, 220, 131, 250, 31, 183, 8, 112,
      104, 149, 195, 204, 202, 28, 228, 88, 255, 219, 6, 65, 60, 116, 136, 28, 128, 227, 107, 202,
      2, 170, 235, 8, 3, 14, 35, 74, 209, 247, 190, 236, 88, 208, 155, 254, 191, 153, 45, 131, 134,
      123, 232, 56, 188, 48, 52, 146, 104, 85, 1, 93, 201, 19, 3, 223, 134, 154, 81, 243, 32, 154,
      36, 185, 227, 139, 30, 44, 129, 114, 34, 228, 152, 221, 235, 115, 40, 193, 106, 210, 73, 187,
      56, 183, 69, 214, 217, 21, 23, 51, 191, 64, 172, 127, 200, 87, 216, 161, 157, 143, 231, 226,
      237, 74, 157, 150, 161, 27, 212, 23, 188, 151, 175, 162, 188, 155, 191, 236, 192, 2, 171,
      214, 121, 225, 253, 188, 60, 154, 177, 207, 251, 172, 121, 190, 187, 206, 202, 65, 230, 1]

def serviceSample : Sample where
  key := exampleKey
  nonce := exampleNonce
  plaintext := marshalIndent [exampleRecord]
  sealed :=
    [28, 8, 246, 59, 190, 239, 226, 59, 173, 97, 181, 227, 222, 154, 12, 3, 226, 187, 226, 22,
      202, 91, 125, 18, 253, 244, 144, 225, 65, 28, 48, 130, 50, 115, 159, 160, 218, 241, 34, 171,
      17, 134, 83, 231, 168, 167, 8, 24, 204, 43, 15, 225, 63, 244, 153, 250, 29, 253, 95, 116,
      104, 193, 217, 228, 208, 28, 230, 90, 241, 184, 86, 23, 40, 118, 144, 78, 205, 173, 34, 226,
      24, 170, 233, 66, 84, 10, 35, 30, 203, 223, 164, 236, 90, 210, 149, 135, 235, 216, 121, 198,
      134, 50, 188, 123, 234, 105, 77, 144, 114, 85, 3, 93, 150, 109, 66, 139, 195, 229, 7, 233,
      57, 158, 35, 184, 241, 185, 26, 103, 214, 55, 115, 178, 213, 186, 187, 113, 50, 193, 106,
      131, 17, 208, 108, 226, 22, 212, 193, 70, 65, 112, 231, 47, 174, 101, 200, 85, 216, 254, 227,
      206, 179, 183, 190, 55, 154, 139, 173, 10, 194, 60, 169, 147, 178, 229, 245, 207, 252, 163,
      186, 0, 177, 139, 81, 158, 111, 255, 224, 186, 123, 152, 185, 63, 239, 74, 110, 104, 33, 44,
      13, 110, 209, 97, 175, 254, 31, 65]

theorem samples_consistent : Consistent [clientSample, serviceSample] := by
  decide +kernel

def exampleAead : Aead :=
  sampled [clientSample, serviceSample]

/-- CPython 3.11 with its default limits. -/
def exampleInterpreter : Interpreter where
  ignoresExcess := true
  limits := ⟨true, some 990, some 4300⟩
  constants := rfl
  nests := rfl
  str := fun _ => []
  unicodeDecodeError := fun _ => ""
  jsonDecodeError := fun _ => ""
  digitsError := ""

def exampleTexts : GoTexts where
  corruptInput := fun _ => ""
  jsonError := fun _ => ""

theorem example_formats_interoperate :
    (∃ blob, encryptRecords exampleAead [exampleRecord] exampleKey exampleNonce = .ok blob ∧
      readDatastore exampleTexts exampleAead blob exampleKey = .ok [exampleRecord] ∧
      decryptRecords exampleInterpreter exampleAead blob exampleKey =
        .ok ([exampleRecord].map (Record.map pyText))) ∧
    (∃ blob, sealRecords exampleAead [exampleRecord] exampleKey exampleNonce = .ok blob ∧
      readDatastore exampleTexts exampleAead blob exampleKey = .ok [exampleRecord] ∧
      decryptRecords exampleInterpreter exampleAead blob exampleKey =
        .ok ([exampleRecord].map (Record.map pyText))) :=
  formats_interoperate (sampled_opens samples_consistent) (sampled_tagged samples_consistent)
    exampleInterpreter exampleTexts rfl rfl [exampleRecord]

end VmDeploy.Inventory
