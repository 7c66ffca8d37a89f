import VmDeploy.Encoding.Base64
import VmDeploy.Encoding.Utf8
import VmDeploy.Golang.Strings
import VmDeploy.Inventory.Record

/-! `crypto.go` and the contents of the datastore of `inventory.go`. -/

set_option autoImplicit false

namespace VmDeploy.Inventory

open Json

/-- The errors of the service, each with its cause. -/
inductive ServiceError where
  | keyLength (got : Nat)
  | cannotGenerateNonce (cause : String)
  | notBase64 (cause : String)
  | tooShort (length : Nat)
  | decryptionFailed
  | cannotRead (path cause : String)
  | notJsonArray (cause : String)
  | cannotCreate (directory cause : String)
  | cannotWrite (cause : String)
  | cannotFlush (cause : String)
  | cannotClose (cause : String)
  | cannotRestrict (cause : String)
  | cannotReplace (path cause : String)
  deriving DecidableEq, Repr

def ServiceError.text : ServiceError → String
  | .keyLength got => s!"AES-256 key must be {keyBytes} bytes, got {got}"
  | .cannotGenerateNonce cause => s!"cannot generate GCM nonce: {cause}"
  | .notBase64 cause => s!"inventory payload is not valid base64: {cause}"
  | .tooShort length =>
      s!"inventory payload is {length} bytes, too short to contain a {nonceBytes}-byte nonce " ++
        s!"and {tagBytes}-byte tag"
  | .decryptionFailed =>
      "inventory payload failed AES-256-GCM authentication: " ++
        "the key is wrong or the ciphertext was altered"
  | .cannotRead path cause => s!"cannot read datastore {path}: {cause}"
  | .notJsonArray cause => s!"decrypted inventory is not a valid JSON array: {cause}"
  | .cannotCreate directory cause => s!"cannot create temporary datastore in {directory}: {cause}"
  | .cannotWrite cause => s!"cannot write temporary datastore: {cause}"
  | .cannotFlush cause => s!"cannot flush temporary datastore: {cause}"
  | .cannotClose cause => s!"cannot close temporary datastore: {cause}"
  | .cannotRestrict cause => s!"cannot restrict datastore permissions: {cause}"
  | .cannotReplace path cause => s!"cannot replace datastore {path}: {cause}"

/-- The texts of the errors of the standard library. -/
structure GoTexts where
  corruptInput : Bytes → String
  jsonError : Bytes → String

/-- `json.Marshal` with its default escaping for HTML. -/
def htmlEscape (c : Char) : List Char :=
  if c = '"' ∨ c = '\\' then ['\\', c]
  else if c = '\x08' then ['\\', 'b']
  else if c = '\x0c' then ['\\', 'f']
  else if c = '\n' then ['\\', 'n']
  else if c = '\r' then ['\\', 'r']
  else if c = '\t' then ['\\', 't']
  else if c.toNat < 0x20 ∨ c = '<' ∨ c = '>' ∨ c = '&' then unicodeEscape c.toNat
  else if c = '\u2028' ∨ c = '\u2029' then unicodeEscape c.toNat
  else [c]

def structFields (record : Record String) : Fields :=
  fields.map fun field => (field.name.toList, (record.get field).toList)

/-- `json.MarshalIndent(records, "", "  ")` -/
def marshalIndent (records : List (Record String)) : Bytes :=
  Utf8.encode (document htmlEscape (records.map structFields))

/-- `Encrypt` under a generated nonce. -/
def encrypt (aead : Aead) (plaintext key nonce : Bytes) : Except ServiceError Bytes :=
  if key.length ≠ keyBytes then .error (.keyLength key.length)
  else .ok (Base64.encode (nonce ++ aead.encrypt key nonce plaintext))

/-- What `saveLocked` writes. -/
def sealRecords (aead : Aead) (records : List (Record String)) (key nonce : Bytes) :
    Except ServiceError Bytes :=
  encrypt aead (marshalIndent records) key nonce

/-- `base64.StdEncoding.DecodeString`, which ignores line breaks. -/
def decodeString (text : Bytes) : Option Bytes :=
  Base64.decode (text.filter fun byte => byte ≠ 10 && byte ≠ 13)

def decrypt (texts : GoTexts) (aead : Aead) (blob key : Bytes) : Except ServiceError Bytes :=
  if key.length ≠ keyBytes then .error (.keyLength key.length)
  else
    match decodeString (Golang.trimSpace blob) with
    | none => .error (.notBase64 (texts.corruptInput (Golang.trimSpace blob)))
    | some raw =>
        if raw.length < nonceBytes + tagBytes then .error (.tooShort raw.length)
        else
          match aead.decrypt key (raw.take nonceBytes) (raw.drop nonceBytes) with
          | none => .error .decryptionFailed
          | some plaintext => .ok plaintext

/-- A Go string made of a JSON string: a lone surrogate is replaced. -/
def goText (content : Content) : List Char :=
  content.map fun
    | .scalar c => c
    | .half _ => Utf8.replacement

/-- The folding of `encoding/json`, as far as it can reach the letters of a field. -/
def foldRune (c : Char) : Char :=
  if c = '\u017f' then 's'
  else if c = '\u212a' then 'k'
  else c.toLower

/-- The field of a key: an exact match first, then one up to case. -/
def fieldOf (key : List Char) : Option Field :=
  (fields.find? fun field => field.name.toList = key).or
    (fields.find? fun field => field.name.toList = key.map foldRune)

def unmarshalMember (record : Record String) (member : Content × Value) : Option (Record String) :=
  match fieldOf (goText member.1) with
  | none => some record
  | some field =>
      match member.2 with
      | .string content => some (record.set field (String.ofList (goText content)))
      | .null => some record
      | _ => none

def unmarshalElement : Value → Option (Record String)
  | .null => some (.of fun _ => "")
  | .object members => members.foldlM unmarshalMember (.of fun _ => "")
  | _ => none

/-- Into a nil slice of records; `null` leaves it nil. -/
def unmarshal : Value → Option (List (Record String))
  | .null => some []
  | .array elements => elements.mapM unmarshalElement
  | _ => none

def goLimits : Limits where
  constants := false
  depth := some 10000
  integerDigits := none

/-- `json.Unmarshal`, over text whose invalid bytes are replaced. -/
def jsonUnmarshal (plaintext : Bytes) : Option (List (Record String)) :=
  (Json.read goLimits (Utf8.lossy plaintext)).bind unmarshal

/-- What `loadLocked` makes of the bytes of the datastore. -/
def readDatastore (texts : GoTexts) (aead : Aead) (blob key : Bytes) :
    Except ServiceError (List (Record String)) :=
  if blob = [] then .ok []
  else do
    let plaintext ← decrypt texts aead blob key
    match jsonUnmarshal plaintext with
    | none => .error (.notJsonArray (texts.jsonError plaintext))
    | some records => .ok records

/-- The loop of `Upsert` over the records. -/
def upsertInto {T : Type} [DecidableEq T] (candidate : Record T) : List (Record T) → List (Record T)
  | [] => [candidate]
  | record :: rest =>
      if record.hostname = candidate.hostname then candidate :: rest
      else record :: upsertInto candidate rest

end VmDeploy.Inventory
