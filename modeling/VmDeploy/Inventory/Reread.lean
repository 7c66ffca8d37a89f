import VmDeploy.Inventory.Removal

/-! What the client reads of records that it read before and wrote again.

An escape of half a surrogate pair is read together with its other half, so strings that
hold both halves as two code points come back as one. -/

set_option autoImplicit false

namespace VmDeploy.Inventory

open Json Python

def addPoint (content : Content) : Point → Content
  | .scalar c => content ++ [.scalar c]
  | .half unit => addUnit content (unit % 0x10000)

def rejoin (content : Content) : Content :=
  content.foldl addPoint []

theorem foldl_addPoint_plain (before : Content) (text : List Char) :
    (plain text).foldl addPoint before = before ++ plain text := by
  induction text generalizing before with
  | nil => simp [plain]
  | cons c text ih =>
    rw [plain, List.map_cons, List.foldl_cons]
    change (plain text).foldl addPoint (before ++ [.scalar c]) = _
    rw [ih, List.append_assoc]
    rfl

theorem rejoin_pyText (text : String) : rejoin (pyText text) = pyText text := by
  rw [rejoin, pyText, foldl_addPoint_plain, List.nil_append]

theorem run_pointEscape (stack : List Frame) (content : Content) (point : Point) :
    run ⟨stack, .text content⟩ (pointEscape point) =
      some ⟨stack, .text (addPoint content point)⟩ := by
  cases point with
  | scalar c => exact asciiEscape_escapes c stack content
  | half unit =>
    have digits : unicodeEscape unit = unicodeEscape (unit % 0x10000) := by
      have first : unit % 0x10000 / 4096 % 16 = unit / 4096 % 16 := by omega
      have second : unit % 0x10000 / 256 % 16 = unit / 256 % 16 := by omega
      have third : unit % 0x10000 / 16 % 16 = unit / 16 % 16 := by omega
      have fourth : unit % 0x10000 % 16 = unit % 16 := by omega
      simp only [unicodeEscape, hexDigit, first, second, third, fourth]
    rw [pointEscape, digits, run_unicodeEscape _ _ (Nat.mod_lt _ (by decide))]
    rfl

theorem run_dumpText {reader : Reader} (content : Content)
    (opens : step reader '"' = some ⟨reader.stack, .text []⟩) :
    run reader (dumpText content) = deliverText (rejoin content) reader.stack := by
  have inside : ∀ before, run ⟨reader.stack, .text before⟩ (content.flatMap pointEscape) =
      some ⟨reader.stack, .text (content.foldl addPoint before)⟩ := by
    induction content with
    | nil => exact fun _ => rfl
    | cons point content ih =>
      intro before
      rw [List.flatMap_cons, run_append, run_pointEscape, Option.bind_some, ih]
      rfl
  have all : run ⟨reader.stack, .text []⟩ (content.flatMap pointEscape) =
      some ⟨reader.stack, .text (rejoin content)⟩ := inside []
  rw [dumpText, List.cons_append, run_cons, opens, Option.bind_some, run_append, all,
    Option.bind_some]
  simp only [run_cons, step, if_true]
  cases deliverText (rejoin content) reader.stack <;> rfl

def dumpMember (record : Record Content) (field : Field) : List Char :=
  quoted asciiEscape field.name.toList ++ ([':', ' '] ++ dumpText (record.get field))

theorem run_dumpMember (stack : List Frame) (before : List (Content × Value)) (closes : Bool)
    (record : Record Content) (field : Field) :
    run ⟨.members before :: stack, .key closes⟩ (dumpMember record field) =
      some ⟨.members (before ++ [(pyText field.name, .string (rejoin (record.get field)))]) :: stack,
        .after⟩ := by
  rw [dumpMember, run_append, run_quoted asciiEscape_escapes _ (by simp [step, isBlank])]
  simp only [deliverText, Option.bind_some, List.cons_append, List.nil_append, run_cons, step]
  have space : isBlank ':' = false := rfl
  have blank : isBlank ' ' = true := rfl
  simp only [space, blank, Bool.false_eq_true, if_false, if_true, Option.bind_some]
  rw [run_dumpText _ (by simp [step, isBlank, beginValue])]
  rfl

def rereadValue (record : Record Content) : Value :=
  .object (contentMembers sortedFields (record.map rejoin))

theorem run_dumpRecord (stack : List Frame) (before : List Value) (closes : Bool)
    (record : Record Content) :
    run ⟨.elements before :: stack, .value closes⟩ (dumpRecord record) =
      some ⟨.elements (before ++ [rereadValue record]) :: stack, .after⟩ := by
  have members : rereadValue record = .object (sortedFields.map fun field =>
      (pyText field.name, .string (rejoin (record.get field)))) := by
    simp only [rereadValue, contentMembers, get_map]
  refine run_block (p := dumpMember record)
    (fun fields => .members (fields.map fun field =>
      (pyText field.name, .string (rejoin (record.get field))))) .key
    (fun fields => some ⟨.elements (before ++ [.object (fields.map fun field =>
      (pyText field.name, .string (rejoin (record.get field))))]) :: stack, .after⟩)
    (.elements before :: stack) ?_ ?_ ?_ ?_ ?_ ?_ sortedFields |>.trans (by rw [members])
  · simp [step, isBlank, beginValue]
  · intro before closes c blank
    simp [step, blank]
  · intro before closes field
    rw [run_dumpMember, List.map_append]
    rfl
  · intro before
    simp [step, Json.pass, isBlank, afterValue]
  · intro before
    simp [step, Json.pass, isBlank, afterValue, closeObject, deliver]
  · simp [step, isBlank, closeObject, deliver]

theorem parse_dumpRecords (records : List (Record Content)) :
    parse (dumpRecords records) = some (.array (records.map rereadValue)) := by
  have runs : run ⟨[], .value false⟩ (dumpRecords records) =
      some ⟨[], .done (.array (records.map rereadValue))⟩ := by
    refine run_block (fun records => .elements (records.map rereadValue)) .value
      (fun records => some ⟨[], .done (.array (records.map rereadValue))⟩) [] ?_ ?_ ?_ ?_ ?_ ?_ records
    · simp [step, isBlank, beginValue]
    · intro before closes c blank
      simp [step, blank]
    · intro before closes record
      rw [run_dumpRecord, List.map_append]
      rfl
    · intro before
      simp [step, Json.pass, isBlank, afterValue]
    · intro before
      simp [step, Json.pass, isBlank, afterValue, closeArray, deliver]
    · simp [step, isBlank, closeArray, deliver]
  rw [parse, runs]
  rfl

theorem parseRecords_dumped (py : Interpreter) (records : List (Record Content)) :
    parseRecords py (Utf8.encode (dumpRecords records)) =
      .ok (records.map (Record.map rejoin)) := by
  have strings : ∀ members ∈ records.map fun record =>
      contentMembers sortedFields (record.map rejoin), ∀ member ∈ members,
      ∃ content, member.2 = .string content := by
    intro members present member inside
    obtain ⟨record, -, rfl⟩ := List.mem_map.mp present
    obtain ⟨field, -, rfl⟩ := List.mem_map.mp inside
    exact ⟨_, rfl⟩
  have admitted := objects_admitted py.nests strings
  rw [List.map_map] at admitted
  have loads : jsonLoads py (dumpRecords records) = .ok (.array (records.map rereadValue)) :=
    jsonLoads_ok (parse_dumpRecords records) admitted
  have entries := fromEntries_contentMembers py mem_sortedFields (records.map (Record.map rejoin)) 0
  rw [List.map_map] at entries
  rw [parseRecords, Utf8.strict_encode]
  simp only
  rw [loads]
  exact entries

-- What the client wrote, it reads again under the same key.
theorem decryptRecords_encryptRead (py : Interpreter) {aead : Aead} (opens : aead.Opens)
    (tagged : aead.Tagged) {key nonce : Bytes} (strong : key.length = keyBytes)
    (fresh : nonce.length = nonceBytes) (records : List (Record Content)) :
    ∃ blob, encryptRead aead records key nonce = .ok blob ∧
      decryptRecords py aead blob key = .ok (records.map (Record.map rejoin)) := by
  refine ⟨_, if_neg (not_not.mpr strong), ?_⟩
  rw [decryptRecords, openPayload_payload py opens tagged strong fresh]
  exact parseRecords_dumped py records

end VmDeploy.Inventory
