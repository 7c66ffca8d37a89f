import VmDeploy.Inventory.Agreement

/-! What the readers make of a file that no writer has produced. -/

set_option autoImplicit false

namespace VmDeploy.Inventory

open Json Python

structure Nonce where
  bytes : Bytes
  sized : bytes.length = nonceBytes

/-- One run of a writer. -/
inductive Writing where
  | client (records : List (Record String)) (nonce : Nonce)
  | service (records : List (Record String)) (nonce : Nonce)

def Writing.nonce : Writing → Nonce
  | .client _ nonce | .service _ nonce => nonce

def Writing.plaintext : Writing → Bytes
  | .client records _ => Utf8.encode (document asciiEscape (records.map toDict))
  | .service records _ => marshalIndent records

def Writing.blob (aead : Aead) (key : Bytes) : Writing → Option Bytes
  | .client records nonce => (encryptRecords aead records key nonce.bytes).toOption
  | .service records nonce => (sealRecords aead records key nonce.bytes).toOption

def produced (aead : Aead) (key : Bytes) (log : List Writing) : List Bytes :=
  log.filterMap (Writing.blob aead key)

/-- Only what was sealed under the key is opened with it. -/
def Ideal (aead : Aead) (key : Bytes) (log : List Writing) : Prop :=
  ∀ nonce text plaintext, aead.decrypt key nonce text = some plaintext →
    ∃ writing ∈ log, writing.nonce.bytes = nonce ∧ aead.encrypt key nonce writing.plaintext = text

section Rejection

variable {aead : Aead} {key : Bytes} {log : List Writing}

theorem blob_payload (strong : key.length = keyBytes) (writing : Writing) :
    writing.blob aead key = some (payload aead key writing.nonce.bytes writing.plaintext) := by
  cases writing with
  | client records nonce =>
    rw [Writing.blob, encryptRecords, if_neg (not_not.mpr strong)]
    rfl
  | service records nonce =>
    rw [Writing.blob, sealRecords, encrypt, if_neg (not_not.mpr strong)]
    rfl

theorem opened_produced (strong : key.length = keyBytes) (ideal : Ideal aead key log)
    {raw plaintext : Bytes} (opens : opened aead key raw = some plaintext) :
    Base64.encode raw ∈ produced aead key log := by
  unfold opened at opens
  split at opens
  · cases opens
  · obtain ⟨writing, member, nonce, text⟩ := ideal _ _ _ opens
    refine List.mem_filterMap.mpr ⟨writing, member, ?_⟩
    rw [blob_payload strong, payload, nonce, text, List.take_append_drop]

-- A base64 text is opened only if it spells a payload, up to the unused bits of its
-- last character.
theorem opened_respells (strong : key.length = keyBytes) (ideal : Ideal aead key log)
    {text raw plaintext : Bytes} (decodes : Base64.decode text = some raw)
    (opens : opened aead key raw = some plaintext) :
    ∃ blob ∈ produced aead key log, Base64.Respells text blob :=
  ⟨_, opened_produced strong ideal opens, Base64.decode_respells decodes⟩

def Rejected {E A : Type} (result : Except E A) : Prop :=
  ∃ error, result = .error error

theorem rejected_of_none {E A : Type} {result : Except E A} (none : result.toOption = none) :
    Rejected result := by
  cases result with
  | error error => exact ⟨error, rfl⟩
  | ok value => cases none

def compact (text : Bytes) : Bytes :=
  (Golang.trimSpace text).filter fun byte => byte ≠ 10 && byte ≠ 13

/-- The client reads the text as a payload, up to the unused bits of its last character
and the padding that its release ignores. -/
def Spells (py : Interpreter) (text blob : Bytes) : Prop :=
  Base64.Respells text blob ∨ py.ignoresExcess = true ∧
    ∃ core count, text = core ++ List.replicate count Base64.pad ∧ Base64.Respells core blob

theorem service_rejects (strong : key.length = keyBytes) (ideal : Ideal aead key log)
    (goTexts : GoTexts) {text : Bytes} (nonempty : text ≠ [])
    (foreign : ∀ blob ∈ produced aead key log, ¬ Base64.Respells (compact text) blob) :
    Rejected (readDatastore goTexts aead text key) := by
  apply rejected_of_none
  rw [readDatastore_eq nonempty, decrypt_eq strong]
  cases decodes : decodeString (Golang.trimSpace text) with
  | none => rfl
  | some raw =>
    cases opens : opened aead key raw with
    | none => simp [opens]
    | some plaintext =>
      obtain ⟨blob, member, respells⟩ := opened_respells strong ideal decodes opens
      exact absurd respells (foreign blob member)

theorem client_rejects (strong : key.length = keyBytes) (ideal : Ideal aead key log)
    (py : Interpreter) {text : Bytes}
    (foreign : ∀ blob ∈ produced aead key log, ¬ Spells py text blob) :
    Rejected (decryptRecords py aead text key) := by
  apply rejected_of_none
  rw [decryptRecords_eq, openPayload_eq strong]
  cases reads : (a2bBase64 py.ignoresExcess text).toOption with
  | none => rfl
  | some raw =>
    cases opens : opened aead key raw with
    | none => simp [opens]
    | some plaintext =>
      rcases a2bBase64_reads reads with decodes | ⟨ignored, core, count, padded, decodes⟩
      · obtain ⟨blob, member, respells⟩ := opened_respells strong ideal decodes opens
        exact absurd (.inl respells) (foreign blob member)
      · obtain ⟨blob, member, respells⟩ := opened_respells strong ideal decodes opens
        exact absurd (.inr ⟨ignored, core, count, padded, respells⟩) (foreign blob member)

end Rejection

/-- The cipher that has sealed what the log says, and nothing else. -/
def idealised (aead : Aead) (key : Bytes) (log : List Writing) : Aead where
  encrypt := aead.encrypt
  decrypt k nonce text :=
    if k = key ∧ ∃ writing ∈ log, writing.nonce.bytes = nonce ∧
        aead.encrypt key nonce writing.plaintext = text then
      aead.decrypt k nonce text
    else none

theorem idealised_ideal (aead : Aead) (key : Bytes) (log : List Writing) :
    Ideal (idealised aead key log) key log := by
  intro nonce text plaintext opens
  simp only [idealised] at opens
  split at opens
  · next sealed => exact sealed.2
  · cases opens

def exampleLog : List Writing :=
  [.client [exampleRecord] ⟨exampleNonce, rfl⟩]

def strictAead : Aead :=
  idealised exampleAead exampleKey exampleLog

def exampleBlob : Bytes :=
  payload strictAead exampleKey exampleNonce clientSample.plaintext

def respelledBlob : Bytes :=
  exampleBlob.set (exampleBlob.length - 2) (Base64.symbol 5)

end VmDeploy.Inventory
