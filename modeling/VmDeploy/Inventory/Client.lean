import VmDeploy.Encoding.JsonLimits
import VmDeploy.Exceptions
import VmDeploy.Inventory.Record
import VmDeploy.Python.Binascii
import VmDeploy.Python.Text
import VmDeploy.Encoding.Utf8

/-! `inventory.py`: the Python side of the encrypted registry.

A Python string is a list of code points, which may hold surrogates; what is written
here are strings of characters. -/

set_option autoImplicit false

namespace VmDeploy.Inventory

open Json Python

/-- What depends on the release and the settings of the interpreter: limits, the `str`
of a decoded value that is no string, and the texts of library errors. -/
structure Interpreter where
  ignoresExcess : Bool
  limits : Limits
  constants : limits.constants = true
  nests : within limits.depth 2 = true
  str : Value → Content
  unicodeDecodeError : Bytes → String
  jsonDecodeError : List Char → String
  digitsError : String

def pyText (text : String) : Content :=
  plain text.toList

/-- `json.dumps` with `ensure_ascii`. -/
def asciiEscape (c : Char) : List Char :=
  if c = '"' ∨ c = '\\' then ['\\', c]
  else if c = '\n' then ['\\', 'n']
  else if c = '\r' then ['\\', 'r']
  else if c = '\t' then ['\\', 't']
  else if c = '\x0c' then ['\\', 'f']
  else if c = '\x08' then ['\\', 'b']
  else if 0x20 ≤ c.toNat ∧ c.toNat ≤ 0x7E then [c]
  else if c.toNat < 0x10000 then unicodeEscape c.toNat
  else surrogatePair c

/-- The fields with their names in the order of `sort_keys`. -/
def sortedFields : List Field :=
  [.hostname, .ipv4, .ipv6, .role, .state, .stateTimestamp, .status, .statusTimestamp]

def toDict (record : Record String) : Fields :=
  sortedFields.map fun field => (field.name.toList, (record.get field).toList)

def keyLengthError (key : Bytes) : PyError :=
  .inventoryError s!"AES-256 key must be {keyBytes} bytes, got {key.length}"

def encryptRecords (aead : Aead) (records : List (Record String)) (key nonce : Bytes) :
    Except PyError Bytes :=
  if key.length ≠ keyBytes then .error (keyLengthError key)
  else
    let plaintext := Utf8.encode (document asciiEscape (records.map toDict))
    .ok (Base64.encode (nonce ++ aead.encrypt key nonce plaintext))

/-- The value of a key in a dictionary built from these members: the last one. -/
def lookup (members : List (Content × Value)) (name : String) : Option Value :=
  (members.reverse.find? fun member => member.1 = pyText name).map Prod.snd

/-- `sorted(missing)` -/
def missingFields (members : List (Content × Value)) : List Field :=
  sortedFields.filter fun field => (lookup members field.name).isNone

def str (py : Interpreter) : Value → Content
  | .string content => content
  | value => py.str value

def fromDict (py : Interpreter) (members : List (Content × Value)) :
    Except PyError (Record Content) :=
  let missing := missingFields members
  if missing ≠ [] then
    let names := String.ofList (reprList (missing.map fun field => field.name.toList))
    .error (.inventoryError s!"Inventory record is missing required field(s): {names}")
  else
    .ok (.of fun field => (lookup members field.name).elim [] (str py))

def fromEntries (py : Interpreter) (index : Nat) : List Value → Except PyError (List (Record Content))
  | [] => .ok []
  | .object members :: rest => do
      let record ← fromDict py members
      let records ← fromEntries py (index + 1) rest
      .ok (record :: records)
  | _ :: _ => .error (.inventoryError s!"Inventory entry {index} is not a JSON object")

def typeName : Value → String
  | .null => "NoneType"
  | .bool _ => "bool"
  | .number text => if text.any fun c => c = '.' || c = 'e' || c = 'E' then "float" else "int"
  | .constant _ => "float"
  | .string _ => "str"
  | .array _ => "list"
  | .object _ => "dict"

/-- `json.loads`: what the grammar does not allow is a `JSONDecodeError`, unless the scan
exceeds a limit of the interpreter before it comes to that place. -/
def jsonLoads (py : Interpreter) (text : List Char) : Except PyError Value :=
  match firstExcess py.limits start text with
  | some .depth => .error .recursionError
  | some .digits => .error (.valueError py.digitsError)
  | none =>
      match parse text with
      | none =>
          let exc := py.jsonDecodeError text
          .error (.inventoryError s!"Decrypted inventory is not valid UTF-8 JSON: {exc}")
      | some value => .ok value

theorem jsonLoads_ok {py : Interpreter} {text : List Char} {value : Value}
    (parses : parse text = some value) (admitted : value.admitted py.limits 0 = true) :
    jsonLoads py text = .ok value := by
  rw [jsonLoads, (parse_admitted py.constants parses).mpr admitted, parses]

def parseRecords (py : Interpreter) (plaintext : Bytes) : Except PyError (List (Record Content)) :=
  match Utf8.strict plaintext with
  | none =>
      let exc := py.unicodeDecodeError plaintext
      .error (.inventoryError s!"Decrypted inventory is not valid UTF-8 JSON: {exc}")
  | some text => do
      match ← jsonLoads py text with
      | .array entries => fromEntries py 0 entries
      | decoded =>
          let name := typeName decoded
          .error (.inventoryError s!"Decrypted inventory must be a JSON array, got {name}")

def openPayload (py : Interpreter) (aead : Aead) (blob key : Bytes) : Except PyError Bytes :=
  if key.length ≠ keyBytes then .error (keyLengthError key)
  else
    match a2bBase64 py.ignoresExcess blob with
    | .error exc => .error (.decryptionError s!"Inventory payload is not valid base64: {exc}")
    | .ok raw =>
        if raw.length < nonceBytes + tagBytes then
          .error (.decryptionError (s!"Inventory payload is {raw.length} bytes, too short to " ++
            s!"contain a {nonceBytes}-byte nonce and {tagBytes}-byte tag"))
        else
          match aead.decrypt key (raw.take nonceBytes) (raw.drop nonceBytes) with
          | none =>
              .error (.decryptionError ("Inventory payload failed AES-256-GCM authentication; " ++
                "the key is wrong or the ciphertext was truncated, corrupted, or tampered with"))
          | some plaintext => .ok plaintext

def decryptRecords (py : Interpreter) (aead : Aead) (blob key : Bytes) :
    Except PyError (List (Record Content)) := do
  let plaintext ← openPayload py aead blob key
  parseRecords py plaintext

end VmDeploy.Inventory
