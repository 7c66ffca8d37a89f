import VmDeploy.Inventory.Interop

/-! When the two readers agree on a stored file. -/

set_option autoImplicit false

namespace VmDeploy.Inventory

open Json Python

/-- Both reject, or both return the same records in the same order. -/
def Agree (go : Except ServiceError (List (Record String)))
    (py : Except PyError (List (Record Content))) : Prop :=
  go.toOption.map (List.map (Record.map pyText)) = py.toOption

/-- Each field is present; a key that is a field up to case is the field itself, with a
string of characters as its value. -/
def TidyMembers (members : List (Content × Value)) : Prop :=
  (∀ field : Field, (lookup members field.name).isSome = true) ∧
    ∀ member ∈ members, ∀ field, fieldOf (goText member.1) = some field →
      member.1 = pyText field.name ∧ ∃ text : String, member.2 = .string (pyText text)

def TidyElement : Value → Prop
  | .null => False
  | .object members => TidyMembers members
  | _ => True

def Foreign : Value → Prop
  | .null | .object _ => False
  | _ => True

def Tidy : Value → Prop
  | .null => False
  | .array elements => (∃ element ∈ elements, Foreign element) ∨ ∀ element ∈ elements, TidyElement element
  | _ => True

/-- UTF-8 whose value, if it is one, is within the limits of both readers or of neither
and has only tidy records. -/
def OrdinaryText (py : Interpreter) (plaintext : Bytes) : Prop :=
  ∃ text, Utf8.strict plaintext = some text ∧ ∀ value, parse text = some value →
    value.admitted goLimits 0 = value.admitted py.limits 0 ∧
      (value.admitted py.limits 0 = true → Tidy value)

structure Ordinary (py : Interpreter) (aead : Aead) (blob key : Bytes) : Prop where
  nonempty : blob ≠ []
  unspaced : Golang.trimSpace blob = blob
  unbroken : 10 ∉ blob ∧ 13 ∉ blob
  unpadded : (py.ignoresExcess && excessPadded blob) = false
  content : ∀ raw plaintext, Base64.decode blob = some raw →
    aead.decrypt key (raw.take nonceBytes) (raw.drop nonceBytes) = some plaintext →
      OrdinaryText py plaintext

theorem lookup_append (members : List (Content × Value)) (member : Content × Value)
    (name : String) : lookup (members ++ [member]) name =
      if member.1 = pyText name then some member.2 else lookup members name := by
  rw [lookup, List.reverse_append, List.reverse_singleton, List.singleton_append, List.find?_cons]
  by_cases same : member.1 = pyText name
  · simp [same]
  · simp [same, lookup]

theorem goText_pyText (text : String) : goText (pyText text) = text.toList :=
  goText_plain text.toList

-- Go's record holds, field by field, the strings of Python's dictionary.
theorem unmarshal_tidy {members : List (Content × Value)}
    (tidy : ∀ member ∈ members, ∀ field, fieldOf (goText member.1) = some field →
      member.1 = pyText field.name ∧ ∃ text : String, member.2 = .string (pyText text))
    (start : Record String) :
    ∃ result, members.foldlM unmarshalMember start = some result ∧
      ∀ (field : Field) value, lookup members field.name = some value →
        value = .string (pyText (result.get field)) := by
  induction members using List.reverseRecOn with
  | nil => exact ⟨start, rfl, fun _ _ none => by cases none⟩
  | append_singleton members member ih =>
    obtain ⟨result, folds, gets⟩ :=
      ih fun earlier within => tidy earlier (List.mem_append_left _ within)
    have last := tidy member (List.mem_append_right _ List.mem_cons_self)
    have runs : (members ++ [member]).foldlM unmarshalMember start =
        unmarshalMember result member := by
      rw [List.foldlM_append, folds]
      exact bind_pure (unmarshalMember result member)
    rw [runs]
    cases known : fieldOf (goText member.1) with
    | none =>
      refine ⟨result, by simp [unmarshalMember, known], ?_⟩
      intro field value found
      rw [lookup_append] at found
      split at found
      · next same =>
        rw [same, goText_pyText, fieldOf_name] at known
        cases known
      · exact gets field value found
    | some target =>
      obtain ⟨key, text, content⟩ := last target known
      refine ⟨result.set target text, by simp [unmarshalMember, known, content, goText_pyText], ?_⟩
      intro field value found
      rw [lookup_append, key] at found
      rw [get_set]
      split at found
      · next same =>
        obtain rfl := name_injective (congrArg String.toList (pyText_injective same))
        rw [if_pos rfl, ← content]
        exact (Option.some.inj found).symm
      · next differs =>
        have other : field ≠ target := by
          rintro rfl
          exact differs rfl
        rw [if_neg other]
        exact gets field value found

theorem fromDict_tidy (py : Interpreter) {members : List (Content × Value)}
    (tidy : TidyMembers members) :
    (unmarshalElement (.object members)).map (Record.map pyText) =
      (fromDict py members).toOption := by
  obtain ⟨present, strings⟩ := tidy
  obtain ⟨result, folds, gets⟩ := unmarshal_tidy strings (.of fun _ => "")
  have none : missingFields members = [] := by
    refine List.filter_eq_nil_iff.mpr fun field _ => ?_
    have here := present field
    rw [Option.isSome_iff_exists] at here
    obtain ⟨value, known⟩ := here
    simp [known]
  have same : ∀ field : Field,
      (lookup members field.name).elim [] (str py) = pyText (result.get field) := by
    intro field
    obtain ⟨value, known⟩ := Option.isSome_iff_exists.mp (present field)
    rw [known, gets field value known]
    rfl
  rw [unmarshalElement, folds, fromDict, none]
  simp only [same]
  rfl

theorem entries_agree (py : Interpreter) {elements : List Value}
    (tidy : ∀ element ∈ elements, TidyElement element) (index : Nat) :
    (elements.mapM unmarshalElement).map (List.map (Record.map pyText)) =
      (fromEntries py index elements).toOption := by
  induction elements generalizing index with
  | nil => rfl
  | cons element rest ih =>
    obtain ⟨here, later⟩ := List.forall_mem_cons.mp tidy
    rw [List.mapM_cons]
    cases element with
    | null => exact here.elim
    | object members =>
      have first := fromDict_tidy py here
      have others := ih later (index + 1)
      rw [fromEntries]
      cases record : fromDict py members with
      | error error =>
        rw [record, Except.toOption, Option.map_eq_none_iff] at first
        rw [first]
        rfl
      | ok result =>
        rw [record, Except.toOption, Option.map_eq_some_iff] at first
        obtain ⟨source, read, rfl⟩ := first
        rw [read]
        cases records : fromEntries py (index + 1) rest with
        | error error =>
          rw [records, Except.toOption, Option.map_eq_none_iff] at others
          simp [others, bind, Except.bind, Except.toOption]
        | ok results =>
          rw [records, Except.toOption, Option.map_eq_some_iff] at others
          obtain ⟨sources, reads, rfl⟩ := others
          simp [reads, bind, Except.bind, Except.toOption]
    | bool value => rfl
    | number text => rfl
    | constant text => rfl
    | string content => rfl
    | array elements => rfl

theorem unmarshalElement_foreign {element : Value} (foreign : Foreign element) :
    unmarshalElement element = none := by
  cases element with
  | null => exact foreign.elim
  | object members => exact foreign.elim
  | bool value => rfl
  | number text => rfl
  | constant text => rfl
  | string content => rfl
  | array elements => rfl

theorem mapM_foreign {elements : List Value} (foreign : ∃ element ∈ elements, Foreign element) :
    elements.mapM unmarshalElement = none := by
  induction elements with
  | nil =>
    obtain ⟨element, member, -⟩ := foreign
    cases member
  | cons element rest ih =>
    rw [List.mapM_cons]
    rcases (List.exists_mem_cons_iff _ _ _).mp foreign with here | later
    · rw [unmarshalElement_foreign here]
      rfl
    · rw [ih later]
      cases unmarshalElement element <;> rfl

theorem fromEntries_foreign (py : Interpreter) {elements : List Value}
    (foreign : ∃ element ∈ elements, Foreign element) (index : Nat) :
    (fromEntries py index elements).toOption = none := by
  induction elements generalizing index with
  | nil =>
    obtain ⟨element, member, -⟩ := foreign
    cases member
  | cons element rest ih =>
    cases element with
    | object members =>
      have later : ∃ element ∈ rest, Foreign element := by
        rcases (List.exists_mem_cons_iff _ _ _).mp foreign with here | later
        · exact here.elim
        · exact later
      have others := ih later (index + 1)
      rw [fromEntries]
      cases fromDict py members with
      | error error => rfl
      | ok record =>
        cases records : fromEntries py (index + 1) rest with
        | error error => simp [bind, Except.bind, Except.toOption]
        | ok results =>
          rw [records] at others
          cases others
    | null => rfl
    | bool value => rfl
    | number text => rfl
    | constant text => rfl
    | string content => rfl
    | array elements => rfl

theorem jsonLoads_eq_read (py : Interpreter) (text : List Char) :
    (jsonLoads py text).toOption = read py.limits text := by
  rw [jsonLoads, Json.read]
  cases parses : parse text with
  | none =>
    cases firstExcess py.limits start text with
    | none => rfl
    | some excess => cases excess <;> rfl
  | some value =>
    have same := parse_admitted py.constants parses
    simp only [Option.bind_some]
    by_cases admitted : value.admitted py.limits 0 = true
    · rw [same.mpr admitted, if_pos admitted]
      rfl
    · rw [if_neg admitted]
      cases exceeds : firstExcess py.limits start text with
      | none => exact absurd (same.mp exceeds) admitted
      | some excess => cases excess <;> rfl

def fromDecoded (py : Interpreter) : Value → Option (List (Record Content))
  | .array entries => (fromEntries py 0 entries).toOption
  | _ => none

theorem parseRecords_eq (py : Interpreter) {plaintext : Bytes} {text : List Char}
    (strict : Utf8.strict plaintext = some text) :
    (parseRecords py plaintext).toOption = (read py.limits text).bind (fromDecoded py) := by
  rw [parseRecords, strict, ← jsonLoads_eq_read]
  simp only
  cases jsonLoads py text with
  | error error => rfl
  | ok value => cases value <;> rfl

theorem unmarshal_agrees (py : Interpreter) {value : Value} (tidy : Tidy value) :
    (unmarshal value).map (List.map (Record.map pyText)) = fromDecoded py value := by
  cases value with
  | null => exact tidy.elim
  | array elements =>
    rw [unmarshal, fromDecoded]
    rcases tidy with foreign | tidy
    · rw [mapM_foreign foreign, fromEntries_foreign py foreign]
      rfl
    · exact entries_agree py tidy 0
  | bool value => rfl
  | number text => rfl
  | constant text => rfl
  | string content => rfl
  | object members => rfl

theorem texts_agree {py : Interpreter} {plaintext : Bytes} (ordinary : OrdinaryText py plaintext) :
    (jsonUnmarshal plaintext).map (List.map (Record.map pyText)) =
      (parseRecords py plaintext).toOption := by
  obtain ⟨text, strict, values⟩ := ordinary
  rw [parseRecords_eq py strict, jsonUnmarshal, Utf8.lossy_of_strict strict, Json.read,
    Json.read]
  cases parsed : parse text with
  | none => rfl
  | some value =>
    obtain ⟨limits, tidy⟩ := values value parsed
    rw [Option.bind_some, Option.bind_some, limits]
    by_cases admitted : value.admitted py.limits 0 = true
    · rw [if_pos admitted]
      exact unmarshal_agrees py (tidy admitted)
    · rw [if_neg admitted]
      rfl

section Files

variable {py : Interpreter} {goTexts : GoTexts} {aead : Aead} {blob key : Bytes}

def opened (aead : Aead) (key raw : Bytes) : Option Bytes :=
  if raw.length < nonceBytes + tagBytes then none
  else aead.decrypt key (raw.take nonceBytes) (raw.drop nonceBytes)

theorem decrypt_eq (strong : key.length = keyBytes) :
    (decrypt goTexts aead blob key).toOption =
      (decodeString (Golang.trimSpace blob)).bind (opened aead key) := by
  rw [decrypt, if_neg (not_not.mpr strong)]
  cases decodeString (Golang.trimSpace blob) with
  | none => rfl
  | some raw =>
    simp only [Option.bind_some, opened]
    split
    · rfl
    · cases aead.decrypt key (raw.take nonceBytes) (raw.drop nonceBytes) <;> rfl

theorem openPayload_eq (strong : key.length = keyBytes) :
    (openPayload py aead blob key).toOption =
      (a2bBase64 py.ignoresExcess blob).toOption.bind (opened aead key) := by
  rw [openPayload, if_neg (not_not.mpr strong)]
  cases a2bBase64 py.ignoresExcess blob with
  | error exc => rfl
  | ok raw =>
    by_cases short : raw.length < nonceBytes + tagBytes
    · simp [opened, short, Except.toOption]
    · cases known : aead.decrypt key (raw.take nonceBytes) (raw.drop nonceBytes) <;>
        simp [opened, short, known, Except.toOption]

theorem decodeString_unbroken (unbroken : 10 ∉ blob ∧ 13 ∉ blob) :
    decodeString blob = Base64.decode blob := by
  rw [decodeString, List.filter_eq_self.mpr]
  intro byte member
  have feed : byte ≠ 10 := fun same => unbroken.1 (same ▸ member)
  have carriage : byte ≠ 13 := fun same => unbroken.2 (same ▸ member)
  simp [feed, carriage]

theorem readDatastore_eq (nonempty : blob ≠ []) :
    (readDatastore goTexts aead blob key).toOption =
      (decrypt goTexts aead blob key).toOption.bind jsonUnmarshal := by
  rw [readDatastore, if_neg nonempty]
  cases decrypt goTexts aead blob key with
  | error error => rfl
  | ok plaintext =>
    simp only [bind, Except.bind, Except.toOption, Option.bind_some]
    cases jsonUnmarshal plaintext <;> rfl

theorem decryptRecords_eq : (decryptRecords py aead blob key).toOption =
    (openPayload py aead blob key).toOption.bind fun plaintext =>
      (parseRecords py plaintext).toOption := by
  rw [decryptRecords]
  cases openPayload py aead blob key <;> rfl

theorem readers_agree (strong : key.length = keyBytes) (ordinary : Ordinary py aead blob key) :
    Agree (readDatastore goTexts aead blob key) (decryptRecords py aead blob key) := by
  rw [Agree, readDatastore_eq ordinary.nonempty, decryptRecords_eq, decrypt_eq strong,
    openPayload_eq strong, ordinary.unspaced, decodeString_unbroken ordinary.unbroken,
    a2bBase64_eq_decode ordinary.unpadded]
  cases decoded : Base64.decode blob with
  | none => rfl
  | some raw =>
    rw [Option.bind_some]
    cases known : opened aead key raw with
    | none => rfl
    | some plaintext =>
      rw [Option.bind_some, Option.bind_some]
      refine texts_agree (ordinary.content raw plaintext decoded ?_)
      unfold opened at known
      split at known
      · cases known
      · exact known

end Files

section Written

variable {aead : Aead} {key nonce : Bytes} {escape : Char → List Char} {order : List Field}

theorem written_tidy (complete : ∀ field, field ∈ order) (record : Record String) :
    TidyMembers (written order record) := by
  constructor
  · intro field
    rw [lookup_written complete]
    rfl
  · intro member within field known
    obtain ⟨other, -, rfl⟩ := List.mem_map.mp within
    rw [goText_pyText, fieldOf_name, Option.some_inj] at known
    subst known
    exact ⟨rfl, record.get other, rfl⟩

theorem document_ordinary (py : Interpreter) (escapes : Escapes escape)
    (complete : ∀ field, field ∈ order) (records : List (Record String)) :
    OrdinaryText py (Utf8.encode (document escape (records.map (texts order)))) := by
  refine ⟨_, Utf8.strict_encode _, ?_⟩
  intro value parsed
  rw [parse_document escapes, Option.some_inj] at parsed
  subst parsed
  constructor
  · rw [document_admitted rfl, document_admitted py.nests]
  · intro _
    rw [values_texts]
    right
    intro element member
    obtain ⟨record, -, rfl⟩ := List.mem_map.mp member
    exact written_tidy complete record

theorem payload_ordinary (opens : aead.Opens) (py : Interpreter) (strong : key.length = keyBytes)
    (fresh : nonce.length = nonceBytes) (escapes : Escapes escape)
    (complete : ∀ field, field ∈ order) (records : List (Record String)) :
    Ordinary py aead (payload aead key nonce
      (Utf8.encode (document escape (records.map (texts order))))) key := by
  have visible := encode_visible (nonce ++ aead.encrypt key nonce
    (Utf8.encode (document escape (records.map (texts order)))))
  constructor
  · exact payload_nonempty fresh _
  · exact Golang.trimSpace_visible fun byte member => (visible byte member).1
  · constructor
    · intro member
      exact (visible 10 member).2.1 rfl
    · intro member
      exact (visible 13 member).2.2 rfl
  · rw [payload, excessPadded_encode, Bool.and_false]
  · intro raw plaintext decoded opened
    rw [payload, Base64.decode_encode, Option.some_inj] at decoded
    subst decoded
    rw [← fresh, List.take_left, List.drop_left, opens key nonce _ strong fresh,
      Option.some_inj] at opened
    subst opened
    exact document_ordinary py escapes complete records

end Written

theorem client_payload_readers_agree :
    Agree (readDatastore exampleTexts exampleAead
        (payload exampleAead exampleKey exampleNonce clientSample.plaintext) exampleKey)
      (decryptRecords exampleInterpreter exampleAead
        (payload exampleAead exampleKey exampleNonce clientSample.plaintext) exampleKey) :=
  readers_agree rfl (payload_ordinary (sampled_opens samples_consistent) exampleInterpreter rfl rfl
    asciiEscape_escapes mem_sortedFields [exampleRecord])

def sealedBy (plaintext sealed : Bytes) : Sample where
  key := exampleKey
  nonce := exampleNonce
  plaintext := plaintext
  sealed := sealed

/-- `null`, `[null]`, `[{}]`, and an array of one object whose key is not valid UTF-8. -/
def strangeSamples : List Sample :=
  [sealedBy (Utf8.encode "null".toList)
      [41, 119, 186, 119, 50, 79, 62, 5, 221, 184, 85, 240, 224, 222, 239, 63, 232, 134, 81, 11],
    sealedBy (Utf8.encode "[null]".toList)
      [28, 108, 163, 119, 169, 184, 223, 241, 251, 239, 74, 209, 16, 147, 2, 13, 227, 203, 39, 55,
        88, 37],
    sealedBy (Utf8.encode "[{}]".toList)
      [28, 121, 171, 70, 207, 190, 138, 250, 194, 108, 153, 211, 127, 167, 28, 18, 84, 249, 228, 31],
    sealedBy [91, 123, 34, 255, 34, 58, 48, 125, 93]
      [28, 121, 244, 228, 231, 223, 242, 102, 208, 70, 162, 121, 26, 184, 178, 167, 22, 14, 27, 231,
        196, 241, 240, 1, 151]]

def emptySample : Sample :=
  sealedBy (Utf8.encode "[]".toList)
    [28, 95, 21, 48, 76, 144, 230, 250, 17, 207, 26, 252, 102, 159, 88, 30, 238, 255]

def strangeAead : Aead :=
  sampled (emptySample :: strangeSamples)

instance (go : Except ServiceError (List (Record String)))
    (py : Except PyError (List (Record Content))) : Decidable (Agree go py) :=
  inferInstanceAs (Decidable (_ = _))

def agreeOn (blob : Bytes) : Bool :=
  decide (Agree (readDatastore exampleTexts strangeAead blob exampleKey)
    (decryptRecords exampleInterpreter strangeAead blob exampleKey))

def stored (plaintext : Bytes) : Bytes :=
  payload strangeAead exampleKey exampleNonce plaintext

/-- On an empty file, a payload with a line break or padding after it, and the four
strange plaintexts. -/
theorem readers_disagree :
    agreeOn [] = false ∧ agreeOn (stored emptySample.plaintext ++ [10]) = false ∧
      agreeOn (stored emptySample.plaintext ++ [Base64.pad]) = false ∧
      strangeSamples.map (fun sample => agreeOn (stored sample.plaintext)) =
        [false, false, false, false] := by
  decide +kernel

end VmDeploy.Inventory
