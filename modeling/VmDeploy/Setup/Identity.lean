import VmDeploy.Config.Load
import VmDeploy.Encoding.TomlScalars
import VmDeploy.Inventory.Manifest

/-! `setup.py`: the key pair and the overlay that name the operational identity. -/

set_option autoImplicit false

open Effects Python

namespace VmDeploy.Setup

open Inventory (Bytes FileProg request orRaise)

/-- The error for a document that is refused: a plain `ValueError` where an integer has more digits
than the interpreter converts. -/
inductive TomlFault where
  | decodeError (exc : String)
  | valueError (exc : String)
  deriving DecidableEq, Repr

/-- What the key library and the interpreter make of bytes, texts and values: a key pair from
its seed, `str` (unless it raises) and `dict` of a TOML value, and library errors. -/
structure Runtime where
  privatePem : Bytes → Bytes
  publicText : Bytes → String
  str : Toml.Value → Option String
  dict : Toml.Value → Except PyError Toml.Table
  digitLimit : Option Nat
  encodeError : String → String
  decodeError : Bytes → String
  tomlFault : Text → TomlFault

def orVmDeployError {A : Type} (doing : String) : Except String A → FileProg A
  | .ok value => .done value
  | .error exc => .raise (.vmDeployError s!"{doing}: {exc}")

variable (rt : Runtime)

/-- `text.encode("ascii")` -/
def asciiBytes (text : String) : Except PyError Bytes :=
  if text.toList.all fun c => c.toNat < 128 then .ok (Utf8.encode text.toList)
  else .error (.valueError (rt.encodeError text))

def reusesPair (privatePath publicPath : String) : FileProg Bool := do
  if ← orRaise (← request (.isFile privatePath)) then
    orRaise (← request (.isFile publicPath))
  else
    pure false

def writePair (privatePath publicPath publicLine : String) (pem : Bytes) : FileProg Unit := do
  let doing := s!"Cannot write generated keypair to {privatePath}"
  orVmDeployError doing (← request (.mkdirParents (Inventory.parentOf privatePath)))
  orVmDeployError doing (← request (.writeBytes privatePath pem))
  match asciiBytes rt (publicLine ++ "\n") with
  | .ok content => orVmDeployError doing (← request (.writeBytes publicPath content))
  | .error exc => do
      -- the file has been opened, and is empty, when the text turns out not to be ASCII
      orVmDeployError doing (← request (.writeBytes publicPath []))
      .raise exc

def generateSshKeypair (privatePath comment : String) : FileProg String := do
  let publicPath ← .ofExcept (Provision.publicKeyPath privatePath)
  if ← reusesPair privatePath publicPath then do
    let bytes ← orRaise (← request (.readBytes publicPath))
    let text ← .ofExcept (Provision.publicKeyOf publicPath (.ok bytes))
    pure (String.ofList text)
  else do
    let seed ← request (.randomBytes 32)
    let publicLine := s!"{rt.publicText seed.val} {comment}"
    writePair rt privatePath publicPath publicLine (rt.privatePem seed.val)
    -- a key that cannot be made private is kept all the same
    let _ ← request (.chmod privatePath 0o600)
    let _ ← request (.chmod publicPath 0o600)
    pure publicLine

/-- `render` of `_emit_toml`: only booleans and integers are written as they are. -/
def renderValue : Toml.Value → String
  | .boolean value => if value then "true" else "false"
  | .integer value => toString value
  | .string text => s!"\"{text}\""
  | value =>
      let shown := (rt.str value).getD ""
      s!"\"{shown}\""

def isMapping : Toml.Value → Bool
  | .table _ => true
  | _ => false

def entryLines (entries : Toml.Table) : List String :=
  entries.map fun entry => s!"{entry.1} = {renderValue rt entry.2}"

def tableLines : String × Toml.Value → List String
  | (name, .table entries) => s!"[{name}]" :: entryLines rt entries ++ [""]
  | _ => []

def emitToml (data : Toml.Table) : String :=
  let scalars := data.filter fun entry => !isMapping entry.2
  let lines := entryLines rt scalars ++ data.flatMap (tableLines rt)
  String.ofList (strip ("\n".intercalate lines).toList) ++ "\n"

def rendersScalar : Toml.Value → Bool
  | .boolean _ | .string _ => true
  | .integer value => Toml.converts rt.digitLimit value.natAbs
  | value => (rt.str value).isSome

def renders : Toml.Value → Bool
  | .table entries => entries.all fun entry => rendersScalar rt entry.2
  | value => rendersScalar rt value

/-- `_emit_toml`, which raises where `str` does: for an integer with more digits than the
interpreter converts. -/
def emission (data : Toml.Table) : Option Text :=
  if data.all fun entry => renders rt entry.2 then some (emitToml rt data).toList else none

def tooManyDigits : PyError :=
  .valueError (s!"Exceeds the limit ({rt.digitLimit.getD 0} digits) for integer string conversion; " ++
    "use sys.set_int_max_str_digits() to increase the limit")

def overlayHeader : String :=
  "# Local, machine-specific overrides. GITIGNORED, never committed.\n" ++
    "# [ssh] was written by `vmdeploy setup`; other sections are preserved.\n\n"

/-- The overlay that is there, read again as a document. -/
def readOverlay (overlay : String) : FileProg Toml.Table := do
  let doing := s!"Cannot read existing overlay {overlay}"
  let bytes ← orVmDeployError doing (← request (.readBytes overlay))
  match Utf8.strict bytes with
  | none => .raise (.valueError (rt.decodeError bytes))
  | some text =>
      match Toml.loads rt.digitLimit (universalNewlines text) with
      | none =>
          match rt.tomlFault (universalNewlines text) with
          | .decodeError exc => orVmDeployError doing (.error exc)
          | .valueError exc => .raise (.valueError exc)
      | some document => pure document

/-- `dict(existing.get("ssh", {}))` -/
def sshTable (existing : Toml.Table) : Except PyError Toml.Table :=
  match Dict.get? existing "ssh" with
  | none => .ok []
  | some (.table entries) => .ok entries
  | some value => rt.dict value

def withIdentity (existing ssh : Toml.Table) (username keyPath : String) : Toml.Table :=
  let posix := String.ofList (pathText keyPath.toList)
  let named := Dict.assign ssh "user" (.string username)
  Dict.assign existing "ssh" (.table (Dict.assign named "key_path" (.string posix)))

def writeLocalOverlay (basePath username keyPath : String) : FileProg String := do
  let overlay := Config.localOverlayPath basePath
  let existing ← if ← orRaise (← request (.isFile overlay)) then readOverlay rt overlay else pure []
  let ssh ← .ofExcept (sshTable rt existing)
  match emission rt (withIdentity existing ssh username keyPath) with
  | none => .raise (tooManyDigits rt)
  | some text => do
      let content := Utf8.encode (overlayHeader.toList ++ text)
      orVmDeployError s!"Cannot write local overlay {overlay}" (← request (.writeBytes overlay content))
      pure overlay

end VmDeploy.Setup
