import VmDeploy.Effects.Threads
import VmDeploy.Inventory.Registration
import VmDeploy.Inventory.Tampering

/-! `Store` of `inventory.go`: its methods, and the directory that holds its file. -/

set_option autoImplicit false

open Effects

namespace VmDeploy.Inventory

/-- Why `os.ReadFile` fails. -/
inductive ReadFault where
  | notExist
  | failed (cause : String)
  deriving DecidableEq, Repr

/-- What is done to a temporary file. -/
inductive TempOp where
  | write (content : Bytes)
  | sync
  | close
  | chmod (mode : Nat)
  | rename
  deriving DecidableEq, Repr

inductive StoreOp where
  | readFile
  | readNonce
  | createTemp (pattern : String)
  | temp (name : String) (op : TempOp)
  | remove (name : String)
  deriving DecidableEq, Repr

abbrev StoreOp.Reply : StoreOp → Type
  | .readFile => Except ReadFault Bytes
  | .readNonce => Except String Nonce
  | .createTemp _ => Except String String
  | .temp _ _ => Except String Unit
  | .remove _ => Unit

abbrev storeSignature : Signature :=
  ⟨StoreOp, StoreOp.Reply⟩

abbrev StoreProg (A : Type) :=
  Prog storeSignature ServiceError A

def onStore (op : StoreOp) : StoreProg op.Reply :=
  Prog.perform (I := storeSignature) op

structure Store where
  path : String
  key : Bytes

inductive StoreCall where
  | upsert (candidate : Record String)
  | load
  | rawCiphertext
  deriving DecidableEq, Repr

inductive StoreAnswer where
  | records (records : List (Record String))
  | blob (blob : Bytes)
  deriving DecidableEq, Repr

namespace Store

variable (texts : GoTexts) (aead : Aead) (store : Store)

def loadLocked : StoreProg (List (Record String)) := do
  match ← onStore .readFile with
  | .error .notExist => pure []
  | .error (.failed cause) => .raise (.cannotRead store.path cause)
  | .ok blob => .ofExcept (readDatastore texts aead blob store.key)

/-- `Encrypt` -/
def encryptFresh (plaintext : Bytes) : StoreProg Bytes :=
  if store.key.length ≠ keyBytes then .raise (.keyLength store.key.length)
  else do
    match ← onStore .readNonce with
    | .error cause => .raise (.cannotGenerateNonce cause)
    | .ok nonce => .ofExcept (encrypt aead plaintext store.key nonce.bytes)

/-- An operation on the temporary file, and what is done before its error is returned. -/
def attempt (name : String) (op : TempOp) (cleanUp : StoreProg Unit) (failure : String → ServiceError) :
    StoreProg Unit := do
  match ← onStore (.temp name op) with
  | .ok _ => pure ()
  | .error cause => do
      cleanUp
      .raise (failure cause)

def removeTemp (name : String) : StoreProg Unit :=
  onStore (.remove name)

def closeAndRemove (name : String) : StoreProg Unit := do
  let _ ← onStore (.temp name .close)
  removeTemp name

def saveLocked (records : List (Record String)) : StoreProg Unit := do
  let sealed ← encryptFresh aead store (marshalIndent records)
  match ← onStore (.createTemp ".inventory-*.tmp") with
  | .error cause => .raise (.cannotCreate (Golang.directoryOf store.path) cause)
  | .ok name => do
      attempt name (.write sealed) (closeAndRemove name) .cannotWrite
      attempt name .sync (closeAndRemove name) .cannotFlush
      attempt name .close (removeTemp name) .cannotClose
      attempt name (.chmod 0o660) (removeTemp name) .cannotRestrict
      attempt name .rename (removeTemp name) (.cannotReplace store.path)

def upsert (candidate : Record String) : StoreProg StoreAnswer := do
  let records ← loadLocked texts aead store
  saveLocked aead store (upsertInto candidate records)
  pure (.records (upsertInto candidate records))

def load : StoreProg StoreAnswer := do
  let records ← loadLocked texts aead store
  pure (.records records)

def rawCiphertext : StoreProg StoreAnswer := do
  match ← onStore .readFile with
  | .error .notExist => pure (.blob [])
  | .error (.failed cause) => .raise (.cannotRead store.path cause)
  | .ok blob => pure (.blob blob)

def body : StoreCall → StoreProg StoreAnswer
  | .upsert candidate => upsert texts aead store candidate
  | .load => load texts aead store
  | .rawCiphertext => rawCiphertext store

end Store

/-- `Lock` or `RLock` -/
def StoreCall.mode : StoreCall → Mode
  | .upsert _ => .exclusive
  | .load => .shared
  | .rawCiphertext => .shared

structure Temp where
  creator : Option Nat
  content : Bytes

/-- How the datastore was replaced: by a seed, or by the call of a thread, together with the number
of changes that the call had seen. -/
inductive Change where
  | seeded (records : List (Record String)) (content : Bytes)
  | replaced (who : Nat) (call : StoreCall) (seen : Nat) (content : Bytes)

def Change.content : Change → Bytes
  | .seeded _ content => content
  | .replaced _ _ _ content => content

/-- The datastore with its temporary files. The changes so far, how many of them the writer has
seen, and the files that could not be removed are kept for the statements only. -/
structure Directory where
  file : Option Bytes
  temps : String → Option Temp
  changes : List Change
  seen : Nat
  unremoved : List String

/-- What an operation meets: a fault, the name and the random bytes it is given, and how much is
written before a fault. -/
structure StoreChoice where
  fault : Option String
  name : String
  nonce : Nonce
  kept : Nat

def Directory.putTemp (directory : Directory) (name : String) (temp : Option Temp) : Directory :=
  { directory with temps := fun other => if other = name then temp else directory.temps other }

/-- Where nothing fails, an operation takes effect as a whole. -/
def Directory.perform (who : Nat) (call : StoreCall) (x : StoreChoice) (name : String)
    (op : TempOp) (directory : Directory) : Except String Unit × Directory :=
  match directory.temps name, op, x.fault with
  | none, _, _ => (.error "no such file or directory", directory)
  | some temp, .write content, some fault =>
      (.error fault, directory.putTemp name
        (some { temp with content := temp.content ++ content.take x.kept }))
  | some temp, .write content, none =>
      (.ok (), directory.putTemp name (some { temp with content := temp.content ++ content }))
  | some temp, .rename, none =>
      (.ok (), { directory.putTemp name none with
        file := some temp.content
        changes := directory.changes ++ [.replaced who call directory.seen temp.content] })
  | some _, _, some fault => (.error fault, directory)
  | some _, _, none => (.ok (), directory)

def Directory.step (who : Nat) (call : StoreCall) : Step storeSignature Directory StoreChoice
  | x, .readFile, directory =>
      (match x.fault with
        | some fault => .error (.failed fault)
        | none => directory.file.elim (.error .notExist) .ok,
       if call.mode = .exclusive then { directory with seen := directory.changes.length } else directory)
  | x, .readNonce, directory =>
      (match x.fault with
        | some fault => .error fault
        | none => .ok x.nonce, directory)
  | x, .createTemp _, directory =>
      match x.fault, directory.temps x.name with
      | some fault, _ => (.error fault, directory)
      | none, some _ => (.error "file exists", directory)
      | none, none => (.ok x.name, directory.putTemp x.name (some ⟨some who, []⟩))
  | x, .temp name op, directory => directory.perform who call x name op
  | x, .remove name, directory =>
      ((), if x.fault = none then directory.putTemp name none
        else { directory with unremoved := name :: directory.unremoved })

/-- `seed_inventory` replaces the datastore, whoever holds the lock of the service. It is assumed
that its upload, staged elsewhere and moved into place by `install`, takes effect at one moment. -/
inductive Seeds (aead : Aead) (key : Bytes) : Directory → Directory → Prop where
  | seed {directory : Directory} {records : List (Record String)} {nonce : Nonce} {content : Bytes} :
      encryptRecords aead records key nonce.bytes = .ok content →
      Seeds aead key directory { directory with
        file := some content
        changes := directory.changes ++ [.seeded records content] }

/-- The service: requests of any kind that make calls of its store, beside others that replace its
file. -/
def storeServer {R : Type} (texts : GoTexts) (aead : Aead) (store : Store) (call : R → StoreCall)
    (outside : Directory → Directory → Prop) :
    Server storeSignature ServiceError StoreAnswer R Directory StoreChoice where
  mode request := (call request).mode
  body request := store.body texts aead (call request)
  step who request := Directory.step who (call request)
  outside := outside

def Alone (_ _ : Directory) : Prop :=
  False

def StoreCall.apply : StoreCall → List (Record String) → List (Record String)
  | .upsert candidate, records => upsertInto candidate records
  | .load, records => records
  | .rawCiphertext, records => records

def Change.apply : Change → List (Record String) → List (Record String)
  | .seeded seeds _, _ => seeds
  | .replaced _ call _ _, records => call.apply records

section Registry

variable (initial : List (Record String))

def addVersion (versions : List (List (Record String))) : Change → List (List (Record String))
  | .seeded records _ => versions ++ [records]
  | .replaced _ call seen _ => versions ++ [call.apply (versions[seen]?.getD initial)]

def versions (changes : List Change) : List (List (Record String)) :=
  changes.foldl (addVersion initial) [initial]

def version (changes : List Change) (count : Nat) : List (Record String) :=
  (versions initial changes)[count]?.getD initial

def registry (changes : List Change) : List (Record String) :=
  version initial changes changes.length

def registryAfter (changes : List Change) : List (Record String) :=
  changes.foldl (fun records change => change.apply records) initial

end Registry

def fileAfter (file : Option Bytes) (changes : List Change) : Option Bytes :=
  (changes.getLast?.map Change.content).or file

end VmDeploy.Inventory
