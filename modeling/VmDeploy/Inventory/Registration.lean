import VmDeploy.Inventory.Interop
import VmDeploy.Inventory.Requests

/-! Which bodies a registration takes, against the one form that is documented. -/

set_option autoImplicit false

namespace Json

-- After a value only blanks may follow.
theorem run_done {reader : Reader} {value : Value} (ended : reader.mode = .done value)
    (text : List Char) : run reader text = if text.all isBlank then some reader else none := by
  induction text with
  | nil => rfl
  | cons c text ih =>
    rw [run_cons, step, ended, List.all_cons]
    simp only [pass, ended]
    by_cases blank : isBlank c = true
    · simpa [blank] using ih
    · simp [blank]

theorem finish_object {reader : Reader} {members : List (Content × Value)}
    (ends : finish reader = some (.object members)) : reader.mode = .done (.object members) := by
  unfold finish at ends
  cases known : reader.mode <;> simp_all

-- A text that begins with a whole object.
theorem parse_append {shown : List Char} {members : List (Content × Value)}
    (parses : parse shown = some (.object members)) (rest : List Char) :
    parse (shown ++ rest) = if rest.all isBlank then some (.object members) else none := by
  obtain ⟨reader, reads, ends⟩ := Option.bind_eq_some_iff.mp parses
  rw [parse, run_append, reads, Option.bind_some, run_done (finish_object ends)]
  split
  · exact ends
  · rfl

theorem members_admitted {limits : Limits} (shallow : within limits.depth 1 = true)
    {members : List (Content × Value)}
    (flat : ∀ member ∈ members, member.2 = .null ∨ ∃ content, member.2 = .string content) :
    (Value.object members).admitted limits 0 = true := by
  have each : membersAdmitted limits 1 members = true := by
    induction members with
    | nil => rfl
    | cons member members ih =>
      obtain ⟨here, later⟩ := List.forall_mem_cons.mp flat
      rw [membersAdmitted, ih later, Bool.and_true]
      rcases here with null | ⟨content, text⟩
      · rw [null]
        rfl
      · rw [text]
        rfl
  rw [Value.admitted, shallow, each]
  rfl

end Json

namespace VmDeploy.Inventory

open Json

def exactField (name : Content) : Option Field :=
  fields.find? fun field => plain field.name.toList = name

def foldedField (name : Content) : Option Field :=
  fieldOf (goText name)

def givenText (reads : Content → Option Field) (field : Field) (member : Content × Value) :
    Option String :=
  match member.2 with
  | .string content =>
      if reads member.1 = some field then some (String.ofList (goText content)) else none
  | _ => none

def textOf (reads : Content → Option Field) (members : List (Content × Value)) (field : Field) :
    String :=
  (members.filterMap (givenText reads field)).getLastD ""

def Identified (reads : Content → Option Field) (members : List (Content × Value)) : Prop :=
  textOf reads members .hostname ≠ "" ∧
    (textOf reads members .role = "jump" ∨ textOf reads members .role = "backend")

/-- The body is one object of the documented fields with string values, and no more. -/
structure Documented (body : Bytes) (members : List (Content × Value)) : Prop where
  short : body.length ≤ maxRequestBytes
  whole : ∃ text, Utf8.strict body = some text ∧ parse text = some (.object members)
  strings : ∀ member ∈ members, exactField member.1 ≠ none ∧ ∃ content, member.2 = .string content
  identified : Identified exactField members

/-- The part of the body that is read begins with an object whose keys fold to the fields, with
values that are strings or null. -/
structure Begun (body : Bytes) (members : List (Content × Value)) (rest : List Char) : Prop where
  begins : ∃ shown, Utf8.lossy (body.take maxRequestBytes) = shown ++ rest ∧
    parse shown = some (.object members)
  texts : ∀ member ∈ members, foldedField member.1 ≠ none ∧
    (member.2 = .null ∨ ∃ content, member.2 = .string content)
  identified : Identified foldedField members

/-- Bodies of another form that a decoder of a stream takes for a record: too long, not UTF-8,
with more behind the object, with a key in another case, or with a null. -/
def Lenient (body : Bytes) : Prop :=
  ∃ members rest, Begun body members rest ∧
    (maxRequestBytes < body.length ∨ Utf8.strict body = none ∨ rest.all isBlank = false ∨
      ∃ member ∈ members, exactField member.1 = none ∨ member.2 = .null)

theorem foldedField_of_exact {name : Content} {field : Field}
    (exact : exactField name = some field) : foldedField name = some field := by
  have same : plain field.name.toList = name := by
    simpa using List.find?_some exact
  rw [foldedField, ← same, goText_plain, fieldOf_name]

theorem textOf_exact {members : List (Content × Value)}
    (exact : ∀ member ∈ members, exactField member.1 ≠ none) :
    textOf exactField members = textOf foldedField members := by
  funext field
  have each : ∀ member ∈ members, givenText exactField field member =
      givenText foldedField field member := by
    intro member present
    obtain ⟨named, known⟩ := Option.ne_none_iff_exists'.mp (exact member present)
    rw [givenText, givenText, known, foldedField_of_exact known]
  rw [textOf, textOf, List.filterMap_congr each]

-- One member that the decoder takes, and what it leaves in the record.
theorem decodeMember_some {record next : Record String} {member : Content × Value} :
    decodeMember record member = some next ↔
      (foldedField member.1 ≠ none ∧
        (member.2 = .null ∨ ∃ content, member.2 = .string content)) ∧
      ∀ field, next.get field = (givenText foldedField field member).getD (record.get field) := by
  obtain ⟨name, value⟩ := member
  cases known : foldedField name with
  | none =>
    rw [foldedField] at known
    simp [decodeMember, known]
  | some named =>
    have found : fieldOf (goText name) = some named := known
    simp only [decodeMember, unmarshalMember, found, givenText, known, Option.bind_eq_bind,
      Option.bind_some]
    cases value with
    | null =>
      constructor
      · intro same
        cases same
        simp
      · rintro ⟨-, gets⟩
        rw [record_ext gets]
    | string content =>
      have sets : ∀ field, (record.set named (String.ofList (goText content))).get field =
          (if some named = some field then some (String.ofList (goText content)) else none).getD
            (record.get field) := by
        intro field
        rw [get_set]
        by_cases same : named = field
        · simp [same]
        · simp [same, Ne.symm same]
      constructor
      · intro same
        cases same
        exact ⟨⟨by simp, .inr ⟨content, rfl⟩⟩, sets⟩
      · rintro ⟨-, gets⟩
        rw [record_ext fun field => (gets field).trans (sets field).symm]
    | bool => simp
    | number => simp
    | constant => simp
    | array => simp
    | object => simp

theorem decodeMembers_some {record result : Record String} {members : List (Content × Value)} :
    members.foldlM decodeMember record = some result ↔
      (∀ member ∈ members, foldedField member.1 ≠ none ∧
        (member.2 = .null ∨ ∃ content, member.2 = .string content)) ∧
      ∀ field, result.get field =
        (members.filterMap (givenText foldedField field)).getLastD (record.get field) := by
  induction members generalizing record with
  | nil =>
    constructor
    · intro same
      cases same
      simp
    · rintro ⟨-, gets⟩
      rw [record_ext gets]
      rfl
  | cons member rest ih =>
    -- the rest starts from what this member leaves
    have passes : ∀ (next : Record String) (field : Field),
        next.get field = (givenText foldedField field member).getD (record.get field) →
        (rest.filterMap (givenText foldedField field)).getLastD (next.get field) =
          ((member :: rest).filterMap (givenText foldedField field)).getLastD
            (record.get field) := by
      intro next field gets
      rw [List.filterMap_cons]
      cases given : givenText foldedField field member with
      | none => simp [gets, given]
      | some text => rw [gets, given, List.getLastD_cons, Option.getD_some]
    rw [List.foldlM_cons, Option.bind_eq_bind, Option.bind_eq_some_iff, List.forall_mem_cons]
    constructor
    · rintro ⟨next, here, later⟩
      obtain ⟨loose, gets⟩ := decodeMember_some.mp here
      obtain ⟨all, ends⟩ := ih.mp later
      exact ⟨⟨loose, all⟩, fun field => (ends field).trans (passes next field (gets field))⟩
    · rintro ⟨⟨loose, all⟩, ends⟩
      have here : decodeMember record member =
          some (.of fun field => (givenText foldedField field member).getD (record.get field)) :=
        decodeMember_some.mpr ⟨loose, fun field => get_of _ field⟩
      exact ⟨_, here, ih.mpr ⟨all, fun field =>
        (ends field).trans (passes _ field (get_of _ field)).symm⟩⟩

def recordOf (reads : Content → Option Field) (members : List (Content × Value)) : Record String :=
  .of (textOf reads members)

theorem decodeRecord_object {members : List (Content × Value)} {record : Record String} :
    decodeRecord (.object members) = some record ↔
      (∀ member ∈ members, foldedField member.1 ≠ none ∧
        (member.2 = .null ∨ ∃ content, member.2 = .string content)) ∧
      record = recordOf foldedField members := by
  rw [decodeRecord, decodeMembers_some]
  refine and_congr_right fun _ => ?_
  constructor
  · intro gets
    refine record_ext fun field => ?_
    rw [gets field, recordOf, get_of, get_of, textOf]
  · rintro rfl field
    rw [recordOf, get_of, get_of, textOf]

theorem validate_of {record : Record String} :
    record.validate = .ok () ↔
      record.hostname ≠ "" ∧ (record.role = "jump" ∨ record.role = "backend") := by
  refine ⟨validate_ok, ?_⟩
  rintro ⟨named, role⟩
  rw [Record.validate, if_neg named, if_neg]
  rintro ⟨jump, backend⟩
  exact role.elim jump backend

-- The first value of a stream is the object that some beginning of it holds.
theorem firstValue_object {reader : Reader} (waits : ∀ value, reader.mode ≠ .done value)
    {text : List Char} {members : List (Content × Value)} :
    firstValue reader text = some (.object members) ↔
      ∃ shown rest, text = shown ++ rest ∧
        (run reader shown).bind finish = some (.object members) := by
  have unfinished : ∀ reader : Reader, (∀ value, reader.mode ≠ .done value) →
      finish reader ≠ some (.object members) :=
    fun reader waits ends => waits _ (finish_object ends)
  induction text generalizing reader with
  | nil =>
    rw [firstValue]
    constructor
    · exact fun ends => absurd ends (unfinished reader waits)
    · rintro ⟨shown, rest, split, reads⟩
      rw [(List.nil_eq_append_iff.mp split).1] at reads
      exact absurd reads (unfinished reader waits)
  | cons c text ih =>
    have shift : (∃ shown rest, c :: text = shown ++ rest ∧
          (run reader shown).bind finish = some (.object members)) ↔
        ∃ shown rest, text = shown ++ rest ∧
          ((step reader c).bind fun next => (run next shown).bind finish) =
            some (.object members) := by
      constructor
      · rintro ⟨shown, rest, split, reads⟩
        obtain ⟨rfl, rfl⟩ | ⟨more, rfl, rfl⟩ := List.cons_eq_append_iff.mp split
        · exact absurd reads (unfinished reader waits)
        · rw [run_cons, Option.bind_assoc] at reads
          exact ⟨more, rest, rfl, reads⟩
      · rintro ⟨shown, rest, rfl, reads⟩
        refine ⟨c :: shown, rest, rfl, ?_⟩
        rw [run_cons, Option.bind_assoc]
        exact reads
    rw [shift, firstValue]
    cases stepped : step reader c with
    | none => simp
    | some next =>
      simp only [Option.bind_eq_bind, Option.bind_some]
      by_cases ended : ∃ value, next.mode = .done value
      · -- the object ends here, whatever comes next
        obtain ⟨value, ended⟩ := ended
        have ends : finish next = some value := by
          rw [finish, ended]
        simp only [ended, run_done ended]
        constructor
        · rintro same
          refine ⟨[], text, rfl, ?_⟩
          exact ends.trans same
        · rintro ⟨shown, rest, -, reads⟩
          split at reads
          · exact ends.symm.trans reads
          · cases reads
      · have waits : ∀ value, next.mode ≠ .done value := not_exists.mp ended
        refine Iff.trans ?_ (ih waits)
        cases mode : next.mode with
        | done value => exact absurd mode (waits value)
        | _ => rfl

-- A record that is decoded and valid is read from a body that begins with one.
theorem begun_of_decodeBody {body : Bytes} {record : Record String}
    (decodes : decodeBody body = some record) (valid : record.validate = .ok ()) :
    ∃ members rest, Begun body members rest := by
  obtain ⟨value, found, rest⟩ := Option.bind_eq_some_iff.mp decodes
  have decoded : decodeRecord value = some record := by
    split at rest
    · exact rest
    · cases rest
  obtain ⟨named, role⟩ := validate_ok valid
  cases value with
  | object members =>
    obtain ⟨texts, rfl⟩ := decodeRecord_object.mp decoded
    obtain ⟨shown, after, split, parses⟩ := (firstValue_object (by simp)).mp found
    exact ⟨members, after, ⟨⟨shown, split, parses⟩, texts, ⟨named, role⟩⟩⟩
  | null =>
    cases decoded
    exact absurd rfl named
  | _ => cases decoded

theorem decodeBody_of_begun {body : Bytes} {members : List (Content × Value)} {rest : List Char}
    (begun : Begun body members rest) :
    decodeBody body = some (recordOf foldedField members) ∧
      (recordOf foldedField members).validate = .ok () := by
  obtain ⟨shown, split, parses⟩ := begun.begins
  have found : firstValue ⟨[], .value false⟩ (Utf8.lossy (body.take maxRequestBytes)) =
      some (.object members) :=
    (firstValue_object (by simp)).mpr ⟨shown, rest, split, parses⟩
  have flat : (Value.object members).admitted goLimits 0 = true :=
    members_admitted rfl fun member present => (begun.texts member present).2
  refine ⟨?_, validate_of.mpr begun.identified⟩
  rw [decodeBody, found, Option.bind_eq_bind, Option.bind_some, if_pos flat]
  exact decodeRecord_object.mpr ⟨begun.texts, rfl⟩

theorem Documented.begun {body : Bytes} {members : List (Content × Value)}
    (documented : Documented body members) : Begun body members [] := by
  obtain ⟨text, reads, parses⟩ := documented.whole
  have exact : ∀ member ∈ members, exactField member.1 ≠ none :=
    fun member present => (documented.strings member present).1
  refine ⟨⟨text, ?_, parses⟩, ?_, ?_⟩
  · rw [List.take_of_length_le documented.short, Utf8.lossy_of_strict reads, List.append_nil]
  · intro member present
    obtain ⟨named, known⟩ := Option.ne_none_iff_exists'.mp (exact member present)
    refine ⟨?_, .inr (documented.strings member present).2⟩
    rw [foldedField_of_exact known]
    exact Option.some_ne_none _
  · have identified := documented.identified
    rwa [Identified, textOf_exact exact] at identified

-- A body has one reading as a beginning, and a documented one is read whole.
theorem Documented.unique {body : Bytes} {members others : List (Content × Value)}
    {rest : List Char} (documented : Documented body members) (begun : Begun body others rest) :
    others = members ∧ rest.all isBlank = true := by
  obtain ⟨text, reads, parses⟩ := documented.whole
  obtain ⟨shown, split, shows⟩ := begun.begins
  rw [List.take_of_length_le documented.short, Utf8.lossy_of_strict reads] at split
  rw [split, parse_append shows] at parses
  split at parses
  · next blank =>
    cases parses
    exact ⟨rfl, blank⟩
  · cases parses

-- The bodies that are taken and not documented are the lenient ones.
theorem lenient_iff {body : Bytes} :
    Lenient body ↔ (∃ members rest, Begun body members rest) ∧
      ¬ ∃ members, Documented body members := by
  constructor
  · rintro ⟨others, rest, begun, departs⟩
    refine ⟨⟨others, rest, begun⟩, ?_⟩
    rintro ⟨members, documented⟩
    obtain ⟨rfl, blank⟩ := documented.unique begun
    obtain ⟨text, reads, -⟩ := documented.whole
    rcases departs with long | invalid | more | ⟨member, present, departs⟩
    · exact absurd documented.short (Nat.not_le_of_lt long)
    · rw [reads] at invalid
      cases invalid
    · rw [blank] at more
      cases more
    · obtain ⟨named, content, text⟩ := documented.strings member present
      rcases departs with unnamed | null
      · exact named unnamed
      · rw [text] at null
        cases null
  · rintro ⟨⟨members, rest, begun⟩, undocumented⟩
    refine ⟨members, rest, begun, ?_⟩
    by_contra orderly
    simp only [not_or, not_exists, not_and, Bool.not_eq_false] at orderly
    obtain ⟨short, valid, blank, plain⟩ := orderly
    obtain ⟨text, reads⟩ := Option.ne_none_iff_exists'.mp valid
    obtain ⟨shown, split, shows⟩ := begun.begins
    rw [List.take_of_length_le (Nat.le_of_not_lt short), Utf8.lossy_of_strict reads] at split
    have exact : ∀ member ∈ members, exactField member.1 ≠ none :=
      fun member present => (plain member present).1
    refine undocumented ⟨members, Nat.le_of_not_lt short, ⟨text, reads, ?_⟩, ?_, ?_⟩
    · rw [split, parse_append shows, if_pos blank]
    · intro member present
      refine ⟨exact member present, ?_⟩
      exact (begun.texts member present).2.resolve_left (plain member present).2
    · have identified := begun.identified
      rwa [Identified, ← textOf_exact exact] at identified

def Response.status : Response → Nat
  | .malformed | .invalid _ => 400
  | .failed _ => 500
  | .registered _ => 200

section Post

variable {texts : GoTexts} {aead : Aead} {key body nonce : Bytes} {statusNow stateNow : String}
  {file : Option Bytes} {records : List (Record String)}

/-- A documented body, and no other, is answered with 200 and is then in the registry with both
timestamps; any other is answered with 400 and leaves the file as it is. -/
structure Answers (texts : GoTexts) (aead : Aead) (key body : Bytes)
    (statusNow stateNow : String) (file : Option Bytes) (records : List (Record String))
    (result : Response × Option Bytes) : Prop where
  accepts : result.1.status = 200 ↔ ∃ members, Documented body members
  refuses : (¬ ∃ members, Documented body members) → result.1.status = 400 ∧ result.2 = file
  registers : ∀ members, Documented body members →
    let candidate := stamped statusNow stateNow (recordOf exactField members)
    candidate.statusTimestamp ≠ "" ∧ candidate.stateTimestamp ≠ "" ∧
      candidate ∈ upsertInto candidate records ∧
      loadRecords texts aead key result.2 = .ok (upsertInto candidate records)

theorem mem_upsertInto_self (candidate : Record String) (records : List (Record String)) :
    candidate ∈ upsertInto candidate records := by
  induction records with
  | nil => exact List.mem_singleton_self candidate
  | cons record rest ih =>
    rw [upsertInto]
    split
    · exact List.mem_cons_self
    · exact List.mem_cons_of_mem _ ih

theorem stamped_stamps (statusStamp : statusNow ≠ "") (stateStamp : stateNow ≠ "")
    (record : Record String) :
    (stamped statusNow stateNow record).statusTimestamp ≠ "" ∧
      (stamped statusNow stateNow record).stateTimestamp ≠ "" := by
  unfold stamped
  dsimp only
  constructor
  · split <;> assumption
  · split <;> assumption

theorem sealRecords_loads (opens : aead.Opens) (tagged : aead.Tagged)
    (strong : key.length = keyBytes) (fresh : nonce.length = nonceBytes)
    (records : List (Record String)) :
    ∃ blob, sealRecords aead records key nonce = .ok blob ∧
      loadRecords texts aead key (some blob) = .ok records := by
  refine ⟨_, if_neg (not_not.mpr strong), ?_⟩
  exact readDatastore_payload opens tagged texts strong fresh htmlEscape_escapes mem_fields records

-- A record that is decoded and valid is written, and any other request is a bad one.
theorem postInventory_taken (opens : aead.Opens) (tagged : aead.Tagged)
    (strong : key.length = keyBytes) (fresh : nonce.length = nonceBytes)
    (loads : loadRecords texts aead key file = .ok records) {record : Record String}
    (decodes : decodeBody body = some record) (valid : record.validate = .ok ()) :
    let after := upsertInto (stamped statusNow stateNow record) records
    let result := postInventory texts aead key body statusNow stateNow nonce file
    result.1 = .registered after ∧ loadRecords texts aead key result.2 = .ok after := by
  intro after result
  obtain ⟨blob, written, reads⟩ := sealRecords_loads opens tagged strong fresh after
  have upserts : upsertFile texts aead key (stamped statusNow stateNow record) nonce file =
      .ok (after, blob) := by
    rw [upsertFile, loads]
    simp only [bind, Except.bind]
    rw [written]
  have ends : result = (.registered after, some blob) := by
    simp only [result, postInventory, decodes, valid, upserts]
  rw [ends]
  exact ⟨rfl, reads⟩

theorem postInventory_refused
    (refused : ∀ record, decodeBody body = some record → record.validate ≠ .ok ()) :
    let result := postInventory texts aead key body statusNow stateNow nonce file
    result.1.status = 400 ∧ result.2 = file := by
  rw [postInventory]
  cases decodes : decodeBody body with
  | none => exact ⟨rfl, rfl⟩
  | some record =>
    cases valid : record.validate with
    | error reason => simp [valid, Response.status]
    | ok _ => exact absurd valid (refused record decodes)

/-- For every registry that loads, the request is answered as documented if and only if its body
is none of the lenient ones. -/
theorem registration_documented_iff (opens : aead.Opens) (tagged : aead.Tagged)
    (strong : key.length = keyBytes) (fresh : nonce.length = nonceBytes)
    (statusStamp : statusNow ≠ "") (stateStamp : stateNow ≠ "")
    (loads : loadRecords texts aead key file = .ok records) (body : Bytes) :
    Answers texts aead key body statusNow stateNow file records
        (postInventory texts aead key body statusNow stateNow nonce file) ↔
      ¬ Lenient body := by
  rw [lenient_iff]
  generalize named : postInventory texts aead key body statusNow stateNow nonce file = result
  by_cases taken : ∃ members rest, Begun body members rest
  · obtain ⟨members, rest, begun⟩ := taken
    obtain ⟨decodes, valid⟩ := decodeBody_of_begun begun
    have written :
        result.1 = .registered
          (upsertInto (stamped statusNow stateNow (recordOf foldedField members)) records) ∧
        loadRecords texts aead key result.2 =
          .ok (upsertInto (stamped statusNow stateNow (recordOf foldedField members)) records) := by
      rw [← named]
      exact postInventory_taken opens tagged strong fresh loads decodes valid
    have success : result.1.status = 200 := by
      rw [written.1]
      rfl
    rw [not_and_not_right]
    constructor
    · exact fun answers _ => answers.accepts.mp success
    · intro documents
      have documented := documents ⟨members, rest, begun⟩
      refine ⟨⟨fun _ => documented, fun _ => success⟩, absurd documented, ?_⟩
      intro others documented candidate
      obtain ⟨rfl, -⟩ := documented.unique begun
      have same : recordOf exactField members = recordOf foldedField members := by
        have exact : ∀ member ∈ members, exactField member.1 ≠ none :=
          fun member present => (documented.strings member present).1
        rw [recordOf, recordOf, textOf_exact exact]
      obtain ⟨status, state⟩ := stamped_stamps statusStamp stateStamp (recordOf exactField members)
      refine ⟨status, state, mem_upsertInto_self candidate records, ?_⟩
      have stored := written.2
      rwa [← same] at stored
  · have refused : ∀ record, decodeBody body = some record → record.validate ≠ .ok () :=
      fun record decodes valid => taken (begun_of_decodeBody decodes valid)
    have bad : result.1.status = 400 ∧ result.2 = file := by
      rw [← named]
      exact postInventory_refused refused
    have undocumented : ¬ ∃ members, Documented body members := by
      rintro ⟨members, documented⟩
      exact taken ⟨members, [], documented.begun⟩
    refine ⟨fun _ both => taken both.1, fun _ => ⟨⟨?_, ?_⟩, fun _ => bad, ?_⟩⟩
    · intro success
      rw [bad.1] at success
      cases success
    · exact fun documented => absurd documented undocumented
    · exact fun members documented => absurd ⟨members, documented⟩ undocumented

end Post

def plainBody : Bytes :=
  Utf8.encode "\x7b\"hostname\":\"apnode1\",\"role\":\"backend\"\x7d".toList

theorem plain_registration_documented_iff :
    Answers exampleTexts aesGcm exampleKey plainBody "2026-01-01T00:00:00Z"
        "2026-01-01T00:00:00Z" none []
        (postInventory exampleTexts aesGcm exampleKey plainBody "2026-01-01T00:00:00Z"
          "2026-01-01T00:00:00Z" exampleNonce none) ↔
      ¬ Lenient plainBody :=
  registration_documented_iff aesGcm_opens aesGcm_tagged rfl rfl (by decide) (by decide) rfl plainBody

/-- Two hosts, one after the other: the second is dropped without a word. -/
def twoObjects : List Char :=
  ("\x7b\"hostname\":\"apnode1\",\"role\":\"backend\"\x7d" ++
    "\x7b\"hostname\":\"apnode2\",\"role\":\"backend\"\x7d").toList

theorem second_object_is_dropped :
    ¬ Answers exampleTexts aesGcm exampleKey (Utf8.encode twoObjects) "2026-01-01T00:00:00Z"
        "2026-01-01T00:00:00Z" none []
        (postInventory exampleTexts aesGcm exampleKey (Utf8.encode twoObjects)
          "2026-01-01T00:00:00Z" "2026-01-01T00:00:00Z" exampleNonce none) := by
  intro answers
  have success : (postInventory exampleTexts aesGcm exampleKey (Utf8.encode twoObjects)
      "2026-01-01T00:00:00Z" "2026-01-01T00:00:00Z" exampleNonce none).1.status = 200 := by
    decide +kernel
  obtain ⟨members, documented⟩ := answers.accepts.mp success
  obtain ⟨text, reads, parses⟩ := documented.whole
  rw [Utf8.strict_encode] at reads
  cases reads
  have rejected : (parse twoObjects).isNone = true := by
    decide
  rw [parses] at rejected
  cases rejected

end VmDeploy.Inventory
