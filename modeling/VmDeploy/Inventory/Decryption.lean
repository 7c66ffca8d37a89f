import VmDeploy.Inventory.Agreement

/-! Which exceptions leave `decrypt_records`. -/

set_option autoImplicit false

namespace VmDeploy.Inventory

open Json Python

section Classification

variable {py : Interpreter} {aead : Aead} {blob key : Bytes}

def authenticated (py : Interpreter) (aead : Aead) (blob key : Bytes) : Option Bytes :=
  (a2bBase64 py.ignoresExcess blob).toOption.bind (opened aead key)

/-- Up to authentication every failure is a `DecryptionError`, and after it every failure is
an `InventoryError` that is none. -/
def Classified (authentic : Option Bytes) (result : Except PyError (List (Record Content))) :
    Prop :=
  (authentic = none ∧ ∃ message, result = .error (.decryptionError message)) ∨
    (authentic ≠ none ∧ ((∃ records, result = .ok records) ∨
      ∃ message, result = .error (.inventoryError message)))

/-- The plaintext is authentic, and scanning it exceeds a limit of the interpreter. -/
def Overloads (py : Interpreter) (aead : Aead) (blob key : Bytes) : Prop :=
  ∃ plaintext text, authenticated py aead blob key = some plaintext ∧
    Utf8.strict plaintext = some text ∧ firstExcess py.limits start text ≠ none

theorem openPayload_cases (py : Interpreter) (aead : Aead) (blob : Bytes)
    (strong : key.length = keyBytes) :
    (∃ plaintext, authenticated py aead blob key = some plaintext ∧
      openPayload py aead blob key = .ok plaintext) ∨
    (authenticated py aead blob key = none ∧
      ∃ message, openPayload py aead blob key = .error (.decryptionError message)) := by
  rw [openPayload, if_neg (not_not.mpr strong), authenticated]
  cases a2bBase64 py.ignoresExcess blob with
  | error exc => exact .inr ⟨rfl, _, rfl⟩
  | ok raw =>
    simp only [Except.toOption, Option.bind_some, opened]
    by_cases short : raw.length < nonceBytes + tagBytes
    · simp [short]
    · cases aead.decrypt key (raw.take nonceBytes) (raw.drop nonceBytes) <;> simp [short]

theorem fromEntries_fails {index : Nat} {entries : List Value} {error : PyError}
    (fails : fromEntries py index entries = .error error) : ∃ message, error = .inventoryError message := by
  induction entries generalizing index with
  | nil => cases fails
  | cons entry rest ih =>
    cases entry with
    | object members =>
      rw [fromEntries] at fails
      cases made : fromDict py members with
      | error failure =>
        rw [made] at fails
        cases fails
        unfold fromDict at made
        dsimp only at made
        split at made
        · cases made
          exact ⟨_, rfl⟩
        · cases made
      | ok record =>
        rw [made] at fails
        cases later : fromEntries py (index + 1) rest with
        | error failure =>
          rw [later] at fails
          cases fails
          exact ih later
        | ok records =>
          rw [later] at fails
          cases fails
    | _ =>
      cases fails
      exact ⟨_, rfl⟩

theorem parseRecords_within {plaintext : Bytes}
    (admitted : ∀ text, Utf8.strict plaintext = some text → firstExcess py.limits start text = none) :
    (∃ records, parseRecords py plaintext = .ok records) ∨
      ∃ message, parseRecords py plaintext = .error (.inventoryError message) := by
  unfold parseRecords
  cases strict : Utf8.strict plaintext with
  | none => exact .inr ⟨_, rfl⟩
  | some text =>
    dsimp only
    rw [jsonLoads, admitted text strict]
    dsimp only
    cases parse text with
    | none => exact .inr ⟨_, rfl⟩
    | some value =>
      cases value with
      | array entries =>
        cases read : fromEntries py 0 entries with
        | ok records => exact .inl ⟨records, read⟩
        | error error =>
          obtain ⟨message, rfl⟩ := fromEntries_fails read
          exact .inr ⟨message, read⟩
      | _ => exact .inr ⟨_, rfl⟩

theorem parseRecords_beyond {plaintext : Bytes} {text : List Char}
    (strict : Utf8.strict plaintext = some text) (exceeds : firstExcess py.limits start text ≠ none) :
    parseRecords py plaintext = .error .recursionError ∨
      parseRecords py plaintext = .error (.valueError py.digitsError) := by
  rw [parseRecords, strict]
  dsimp only
  rw [jsonLoads]
  cases known : firstExcess py.limits start text with
  | none => exact absurd known exceeds
  | some excess =>
    cases excess with
    | depth => exact .inl rfl
    | digits => exact .inr rfl

theorem classified_within (strong : key.length = keyBytes) (within : ¬ Overloads py aead blob key) :
    Classified (authenticated py aead blob key) (decryptRecords py aead blob key) := by
  unfold Classified decryptRecords
  rcases openPayload_cases py aead blob strong with
    ⟨plaintext, authentic, opens⟩ | ⟨foreign, message, fails⟩
  · rw [opens, authentic]
    refine .inr ⟨Option.some_ne_none plaintext, parseRecords_within ?_⟩
    intro text strict
    by_contra exceeds
    exact within ⟨plaintext, text, authentic, strict, exceeds⟩
  · rw [fails]
    exact .inl ⟨foreign, message, rfl⟩

theorem not_classified_beyond (strong : key.length = keyBytes)
    (beyond : Overloads py aead blob key) :
    ¬ Classified (authenticated py aead blob key) (decryptRecords py aead blob key) := by
  obtain ⟨plaintext, text, authentic, strict, exceeds⟩ := beyond
  have opens : openPayload py aead blob key = .ok plaintext := by
    rcases openPayload_cases py aead blob strong with
      ⟨other, same, opens⟩ | ⟨foreign, -⟩
    · rw [authentic, Option.some.injEq] at same
      rw [opens, same]
    · rw [authentic] at foreign
      cases foreign
  have escapes : decryptRecords py aead blob key = .error .recursionError ∨
      decryptRecords py aead blob key = .error (.valueError py.digitsError) := by
    rw [decryptRecords, opens]
    exact parseRecords_beyond strict exceeds
  rintro (⟨foreign, -⟩ | ⟨-, ⟨records, returned⟩ | ⟨message, raised⟩⟩)
  · rw [authentic] at foreign
    cases foreign
  · rcases escapes with same | same <;> rw [same] at returned <;> cases returned
  · rcases escapes with same | same <;> rw [same] at raised <;> cases raised

/-- The classification fails exactly for authentic plaintexts that exceed a limit. -/
theorem decryption_classified_iff (strong : key.length = keyBytes) :
    Classified (authenticated py aead blob key) (decryptRecords py aead blob key) ↔
      ¬ Overloads py aead blob key :=
  ⟨fun classified beyond => not_classified_beyond strong beyond classified,
    classified_within strong⟩

end Classification

def registryText : List Char :=
  document asciiEscape [toDict exampleRecord]

def sealedText (text : List Char) : Bytes :=
  payload aesGcm exampleKey exampleNonce (Utf8.encode text)

theorem sealedText_authentic (text : List Char) :
    authenticated exampleInterpreter aesGcm (sealedText text) exampleKey =
      some (Utf8.encode text) := by
  have opens : openPayload exampleInterpreter aesGcm (sealedText text) exampleKey =
      .ok (Utf8.encode text) :=
    openPayload_payload exampleInterpreter aesGcm_opens aesGcm_tagged rfl rfl (Utf8.encode text)
  rw [authenticated, ← openPayload_eq rfl, opens]
  rfl

theorem client_payload_classified :
    Classified (authenticated exampleInterpreter aesGcm (sealedText registryText) exampleKey)
      (decryptRecords exampleInterpreter aesGcm (sealedText registryText) exampleKey) := by
  apply (decryption_classified_iff rfl).mpr
  rintro ⟨plaintext, text, authentic, strict, exceeds⟩
  rw [sealedText_authentic] at authentic
  cases authentic
  rw [Utf8.strict_encode] at strict
  cases strict
  exact exceeds (by decide +kernel)

def nestedArrays : List Char :=
  List.replicate 991 '[' ++ List.replicate 991 ']'

theorem nested_arrays_escape :
    ¬ Classified (authenticated exampleInterpreter aesGcm (sealedText nestedArrays) exampleKey)
      (decryptRecords exampleInterpreter aesGcm (sealedText nestedArrays) exampleKey) := by
  apply not_classified_beyond rfl
  exact ⟨_, nestedArrays, sealedText_authentic _, Utf8.strict_encode _, by decide +kernel⟩

end VmDeploy.Inventory
