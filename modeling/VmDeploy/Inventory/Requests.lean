import VmDeploy.Inventory.Datastore

/-! `main.go`: registration of one record over HTTP, and the file it changes.

The file is taken as one value that a writer replaces whole. -/

set_option autoImplicit false

namespace VmDeploy.Inventory

open Json

/-- The errors of `Validate`. -/
inductive InvalidRecord where
  | noHostname
  | badRole (role : String)
  deriving DecidableEq, Repr

def Record.validate (record : Record String) : Except InvalidRecord Unit :=
  if record.hostname = "" then .error .noHostname
  else if record.role ≠ "jump" ∧ record.role ≠ "backend" then .error (.badRole record.role)
  else .ok ()

def maxRequestBytes : Nat := 1 <<< 20

def firstValue (reader : Reader) : List Char → Option Value
  | [] => finish reader
  | c :: rest => do
      let next ← step reader c
      match next.mode with
      | .done value => some value
      | _ => firstValue next rest

/-- A member of a record, when unknown fields are not allowed. -/
def decodeMember (record : Record String) (member : Content × Value) : Option (Record String) := do
  let _ ← fieldOf (goText member.1)
  unmarshalMember record member

/-- Into a record of empty strings; `null` leaves it so. -/
def decodeRecord : Value → Option (Record String)
  | .null => some (.of fun _ => "")
  | .object members => members.foldlM decodeMember (.of fun _ => "")
  | _ => none

/-- `decoder.Decode`, which sees no more than the first bytes of a body. -/
def decodeBody (body : Bytes) : Option (Record String) := do
  let value ← firstValue ⟨[], .value false⟩ (Utf8.lossy (body.take maxRequestBytes))
  if value.admitted goLimits 0 then decodeRecord value else none

/-- The timestamps that a request leaves out are taken from the clock. -/
def stamped (statusNow stateNow : String) (record : Record String) : Record String :=
  { record with
    statusTimestamp := if record.statusTimestamp = "" then statusNow else record.statusTimestamp
    stateTimestamp := if record.stateTimestamp = "" then stateNow else record.stateTimestamp }

/-- How a `POST` ends: a bad request, an error of the store, or the registry. -/
inductive Response where
  | malformed
  | invalid (reason : InvalidRecord)
  | failed (error : ServiceError)
  | registered (records : List (Record String))
  deriving DecidableEq, Repr

section Store

variable (texts : GoTexts) (aead : Aead) (key : Bytes)

/-- `loadLocked`: a missing file is an empty registry. -/
def loadRecords : Option Bytes → Except ServiceError (List (Record String))
  | none => .ok []
  | some blob => readDatastore texts aead blob key

def upsertFile (candidate : Record String) (nonce : Bytes) (file : Option Bytes) :
    Except ServiceError (List (Record String) × Bytes) := do
  let records ← loadRecords texts aead key file
  let blob ← sealRecords aead (upsertInto candidate records) key nonce
  .ok (upsertInto candidate records, blob)

/-- `handleInventory` for a `POST`, with the file after it. -/
def postInventory (body : Bytes) (statusNow stateNow : String) (nonce : Bytes)
    (file : Option Bytes) : Response × Option Bytes :=
  match decodeBody body with
  | none => (.malformed, file)
  | some candidate =>
      match candidate.validate with
      | .error reason => (.invalid reason, file)
      | .ok _ =>
          match upsertFile texts aead key (stamped statusNow stateNow candidate) nonce file with
          | .error failure => (.failed failure, file)
          | .ok (records, blob) => (.registered records, some blob)

end Store

theorem validate_ok {record : Record String} (valid : record.validate = .ok ()) :
    record.hostname ≠ "" ∧ (record.role = "jump" ∨ record.role = "backend") := by
  unfold Record.validate at valid
  split_ifs at valid with unnamed unknown
  refine ⟨unnamed, ?_⟩
  by_contra neither
  exact unknown (not_or.mp neither)

end VmDeploy.Inventory
