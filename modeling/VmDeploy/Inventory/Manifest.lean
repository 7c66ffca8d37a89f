import VmDeploy.Inventory.Reread
import VmDeploy.Provision.Cluster

/-! The client's key file and its local manifest, as `inventory.py` and `inventory_service.py`
read and write them. -/

set_option autoImplicit false

open Effects Python

namespace VmDeploy.Inventory

open Json

/-- What the client asks of local files, the clock, the random generator and the log. -/
inductive FileOp where
  | isFile (path : String)
  | readBytes (path : String)
  | mkdirParents (path : String)
  | writeBytes (path : String) (content : Bytes)
  | chmod (path : String) (mode : Nat)
  | utcTimestamp
  | randomBytes (count : Nat)
  | warn (message : String)

abbrev FileOp.Reply : FileOp → Type
  | .isFile _ => Except String Bool
  | .readBytes _ => Except String Bytes
  | .mkdirParents _ => Except String Unit
  | .writeBytes _ _ => Except String Unit
  | .chmod _ _ => Except String Unit
  | .utcTimestamp => String
  | .randomBytes count => { bytes : Bytes // bytes.length = count }
  | .warn _ => Unit

abbrev fileSignature : Signature :=
  ⟨FileOp, FileOp.Reply⟩

abbrev FileProg (A : Type) :=
  Prog fileSignature PyError A

def request (op : FileOp) : FileProg op.Reply :=
  Prog.perform (I := fileSignature) op

def orInventoryError {A : Type} (doing : String) : Except String A → FileProg A
  | .ok value => .done value
  | .error exc => .raise (.inventoryError s!"{doing}: {exc}")

def orRaise {A : Type} (reply : Except String A) : FileProg A :=
  .ofExcept (reply.mapError .osError)

/-- `str(path.parent)` -/
def parentOf (path : String) : String :=
  String.ofList (pathParent path.toList)

def keyOf (py : Interpreter) (path : String) (bytes : Bytes) : Except PyError Bytes :=
  match asciiText bytes with
  | .error (byte, place) =>
      .error (.inventoryError (s!"Inventory key at {path} is not ASCII base64: 'ascii' codec " ++
        s!"can't decode byte 0x{Provision.hexByte byte} in position {place}: " ++
        "ordinal not in range(128)"))
  | .ok text =>
      let encoded := (strip (universalNewlines text)).map fun c => UInt8.ofNat c.toNat
      match a2bBase64 py.ignoresExcess encoded with
      | .error exc => .error (.inventoryError s!"Inventory key at {path} is not valid base64: {exc}")
      | .ok key =>
          if key.length ≠ keyBytes then
            .error (.inventoryError
              (s!"Inventory key at {path} decodes to {key.length} bytes, expected {keyBytes}"))
          else .ok key

section Programs

variable (py : Interpreter) (aead : Aead)

def loadKey (path : String) : FileProg Bytes := do
  let bytes ← orInventoryError s!"Cannot read inventory key at {path}"
    (← request (.readBytes path))
  .ofExcept (keyOf py path bytes)

def writeKeyFile (key : Bytes) (path : String) : FileProg Unit :=
  if key.length ≠ keyBytes then .raise (keyLengthError key)
  else do
    let doing := s!"Cannot write inventory key to {path}"
    orInventoryError doing (← request (.mkdirParents (parentOf path)))
    orInventoryError doing (← request (.writeBytes path (Base64.encode key)))
    -- a key that cannot be made private is kept all the same
    let _ ← request (.chmod path 0o600)
    pure ()

def loadOrCreateKey (path : String) : FileProg Bytes := do
  if ← orRaise (← request (.isFile path)) then
    loadKey py path
  else
    let key ← request (.randomBytes keyBytes)
    writeKeyFile key.val path
    pure key.val

def readLocalManifest (config : ClusterConfig) : FileProg (List (Record Content)) := do
  let path := config.inventory.manifestFile
  if ← orRaise (← request (.isFile path)) then
    let key ← loadKey py config.inventory.keyFile
    let blob ← orInventoryError s!"Cannot read local manifest at {path}"
      (← request (.readBytes path))
    .ofExcept (decryptRecords py aead blob key)
  else
    pure []

def writeLocalManifest (config : ClusterConfig) (records : List (Record Content)) :
    FileProg Unit := do
  let key ← loadOrCreateKey py config.inventory.keyFile
  let nonce ← request (.randomBytes nonceBytes)
  let blob ← Prog.ofExcept (encryptRead aead records key nonce.val)
  let path := config.inventory.manifestFile
  let doing := s!"Cannot write local manifest to {path}"
  orInventoryError doing (← request (.mkdirParents (parentOf path)))
  orInventoryError doing (← request (.writeBytes path blob))

/-- `mark_manifest_removed` -/
def markLocalManifest (config : ClusterConfig) : FileProg (List (Record Content)) := do
  let timestamp ← request .utcTimestamp
  let records ← readLocalManifest py aead config
  let updated := removedRecords pyText timestamp config records
  writeLocalManifest py aead config updated
  pure updated

end Programs

structure LocalFiles where
  content : String → Option Bytes
  warnings : List String

def LocalFiles.put (files : LocalFiles) (path : String) (content : Bytes) : LocalFiles :=
  { files with content := Function.update files.content path (some content) }

/-- Whether an operation fails, and what a write that fails leaves behind, if anything. -/
structure FileChoice where
  fails : Option String
  left : Option Bytes
  now : String
  random : (count : Nat) → { bytes : Bytes // bytes.length = count }

def meeting (fails : Option String) : FileChoice :=
  ⟨fails, none, "", fun count => ⟨List.replicate count 1, List.length_replicate⟩⟩

def FileChoice.reply {A : Type} (x : FileChoice) (value : A) : Except String A :=
  match x.fails with
  | some message => .error message
  | none => .ok value

def LocalFiles.written (files : LocalFiles) (x : FileChoice) (path : String) (content : Bytes) :
    LocalFiles :=
  match x.fails, x.left with
  | none, _ => files.put path content
  | some _, some torn => files.put path torn
  | some _, none => files

def localStep : Step fileSignature LocalFiles FileChoice
  | x, .isFile path, files => (x.reply (files.content path).isSome, files)
  | x, .readBytes path, files =>
      (match files.content path with
        | some bytes => x.reply bytes
        | none => .error "No such file or directory", files)
  | x, .mkdirParents _, files => (x.reply (), files)
  | x, .writeBytes path content, files => (x.reply (), files.written x path content)
  | x, .chmod _ _, files => (x.reply (), files)
  | x, .utcTimestamp, files => (x.now, files)
  | x, .randomBytes count, files => (x.random count, files)
  | _, .warn message, files => ((), { files with warnings := files.warnings ++ [message] })

def KeyAt (py : Interpreter) (path : String) (key : Bytes) (files : LocalFiles) : Prop :=
  ∃ bytes, files.content path = some bytes ∧ keyOf py path bytes = .ok key

theorem keyOf_encode (py : Interpreter) (path : String) {key : Bytes}
    (strong : key.length = keyBytes) : keyOf py path (Base64.encode key) = .ok key := by
  have symbols : ∀ value : Fin 64, Base64.symbol value < 128 ∧
      isSpace (Char.ofNat (Base64.symbol value).toNat) = false ∧
      Char.ofNat (Base64.symbol value).toNat ≠ '\r' ∧
      UInt8.ofNat (Char.ofNat (Base64.symbol value).toNat).toNat = Base64.symbol value := by
    decide +kernel
  have each : ∀ byte ∈ Base64.encode key, byte < 128 ∧
      isSpace (Char.ofNat byte.toNat) = false ∧ Char.ofNat byte.toNat ≠ '\r' ∧
      UInt8.ofNat (Char.ofNat byte.toNat).toNat = byte := by
    intro byte member
    rcases Base64.encode_alphabet key byte member with ⟨value, small, rfl⟩ | rfl
    · exact symbols ⟨value, small⟩
    · decide
  have text : asciiText (Base64.encode key) =
      .ok ((Base64.encode key).map fun byte => Char.ofNat byte.toNat) := by
    have none : (Base64.encode key).findIdx? (fun byte => decide (128 ≤ byte)) = none := by
      apply List.findIdx?_eq_none_iff.mpr
      intro byte member
      simpa using (each byte member).1
    rw [asciiText, none]
  have unchanged : ∀ bytes : Bytes, (∀ byte ∈ bytes, Char.ofNat byte.toNat ≠ '\r') →
      universalNewlines (bytes.map fun byte => Char.ofNat byte.toNat) =
        bytes.map fun byte => Char.ofNat byte.toNat := by
    intro bytes plain
    induction bytes with
    | nil => rfl
    | cons byte rest ih =>
      obtain ⟨here, later⟩ := List.forall_mem_cons.mp plain
      rw [List.map_cons, universalNewlines, ih later]
      · rintro - same
        exact absurd same here
      · intro same
        exact absurd same here
  have stripped : strip ((Base64.encode key).map fun byte => Char.ofNat byte.toNat) =
      (Base64.encode key).map fun byte => Char.ofNat byte.toNat := by
    apply strip_visible
    intro c member
    obtain ⟨byte, inside, rfl⟩ := List.mem_map.mp member
    exact (each byte inside).2.1
  have back : ((Base64.encode key).map fun byte => Char.ofNat byte.toNat).map
      (fun c => UInt8.ofNat c.toNat) = Base64.encode key := by
    rw [List.map_map]
    exact (List.map_congr_left fun byte member => (each byte member).2.2.2).trans (List.map_id _)
  rw [keyOf, text]
  simp only
  rw [unchanged _ (fun byte member => (each byte member).2.2.1), stripped, back, a2bBase64_encode]
  exact if_neg (not_not.mpr strong)

theorem keyOf_strong {py : Interpreter} {path : String} {bytes key : Bytes}
    (known : keyOf py path bytes = .ok key) : key.length = keyBytes := by
  unfold keyOf at known
  split at known
  · cases known
  · dsimp only at known
    split at known
    · cases known
    · split at known
      · cases known
      · next strong =>
        cases known
        exact not_not.mp strong

theorem KeyAt.strong {py : Interpreter} {path : String} {key : Bytes} {files : LocalFiles}
    (holds : KeyAt py path key files) : key.length = keyBytes := by
  obtain ⟨bytes, -, known⟩ := holds
  exact keyOf_strong known

/-! ## What becomes of the manifest

An error that is no `InventoryError` comes before the first write of the manifest. -/

/-- Nothing is logged, and such an error leaves the file at the path as it was. -/
def Ends {A : Type} (path : String) (before : LocalFiles) (returned : A → LocalFiles → Prop) :
    Outcome PyError A → LocalFiles → Prop
  | .returned value, after => after.warnings = before.warnings ∧ returned value after
  | .raised error, after => after.warnings = before.warnings ∧
      (error.inventoryText = none → after.content path = before.content path)
  | .stopped, _ => True

section Ends

variable {A B : Type} {path : String} {before files : LocalFiles}

theorem ends_bind {first : FileProg A} {next : A → FileProg B}
    {middle : A → LocalFiles → Prop} {post : B → LocalFiles → Prop}
    (head : Always localStep first files (Ends path before middle))
    (tail : ∀ value after, after.warnings = before.warnings → middle value after →
      Always localStep (next value) after (Ends path before post)) :
    Always localStep (first.bind next) files (Ends path before post) := by
  refine always_bind (Always.mono head ?_)
  intro outcome after ended
  cases outcome with
  | returned value => exact tail value after ended.1 ended.2
  | raised error => exact ended
  | stopped => trivial

theorem ends_mono {p : FileProg A} {post wider : A → LocalFiles → Prop}
    (ends : Always localStep p files (Ends path before post))
    (widen : ∀ value after, post value after → wider value after) :
    Always localStep p files (Ends path before wider) := by
  refine Always.mono ends ?_
  intro outcome after ended
  cases outcome with
  | returned value => exact ⟨ended.1, widen value after ended.2⟩
  | raised error => exact ended
  | stopped => trivial

theorem ends_done {value : A} {post : A → LocalFiles → Prop}
    (silent : files.warnings = before.warnings) (here : post value files) :
    Always localStep (.done value) files (Ends path before post) :=
  always_done ⟨silent, here⟩

def FileOp.Silent : FileOp → Prop
  | .warn _ => False
  | _ => True

theorem warnings_kept {op : FileOp} (silent : op.Silent) (x : FileChoice) :
    (localStep x op files).2.warnings = files.warnings := by
  cases op with
  | warn message => exact silent.elim
  | writeBytes path content =>
    simp only [localStep, LocalFiles.written]
    split <;> rfl
  | _ => rfl

theorem ends_request (op : FileOp) (quiet : op.Silent) (silent : files.warnings = before.warnings) :
    Always localStep (request op) files (Ends path before fun reply after =>
      ∃ x, (localStep x op files).1 = reply ∧ (localStep x op files).2 = after) := by
  unfold request Prog.perform
  refine always_call trivial ?_
  intro x
  exact ends_done ((warnings_kept quiet x).trans silent) ⟨x, rfl, rfl⟩

theorem ends_orInventoryError (doing : String) (reply : Except String A)
    (silent : files.warnings = before.warnings) :
    Always localStep (orInventoryError doing reply) files (Ends path before fun value after =>
      files = after ∧ reply = .ok value) := by
  cases reply with
  | ok value => exact ends_done silent ⟨rfl, rfl⟩
  | error exc => exact always_raise ⟨silent, fun other => by cases other⟩

theorem ends_ofExcept (result : Except PyError A) (silent : files.warnings = before.warnings)
    (kept : files.content path = before.content path) :
    Always localStep (.ofExcept result) files (Ends path before fun value after =>
      files = after ∧ result = .ok value) := by
  cases result with
  | ok value => exact ends_done silent ⟨rfl, rfl⟩
  | error error => exact always_raise ⟨silent, fun _ => kept⟩

theorem ends_orRaise (reply : Except String A) (silent : files.warnings = before.warnings)
    (kept : files.content path = before.content path) :
    Always localStep (orRaise reply) files (Ends path before fun value after =>
      files = after ∧ reply = .ok value) := by
  cases reply with
  | ok value => exact ends_done silent ⟨rfl, rfl⟩
  | error exc => exact always_raise ⟨silent, fun _ => kept⟩

variable {py : Interpreter} {config : ClusterConfig}

theorem ends_loadKey (key : String) (silent : files.warnings = before.warnings)
    (kept : files.content path = before.content path) :
    Always localStep (loadKey py key) files (Ends path before fun value after =>
      files = after ∧ KeyAt py key value files) := by
  apply ends_bind (ends_request (.readBytes key) trivial silent)
  rintro reply after - ⟨x, rfl, rfl⟩
  apply ends_bind (ends_orInventoryError _ _ silent)
  rintro bytes after - ⟨rfl, found⟩
  have present : files.content key = some bytes := by
    simp only [localStep] at found
    cases content : files.content key with
    | none =>
      rw [content] at found
      cases found
    | some bytes' =>
      rw [content] at found
      simp only [FileChoice.reply] at found
      split at found
      · cases found
      · cases found
        rfl
  apply ends_mono (ends_ofExcept (keyOf py key bytes) silent kept)
  rintro value after ⟨same, known⟩
  exact ⟨same, bytes, present, known⟩

theorem written_ok {x : FileChoice} {target : String} {content : Bytes}
    (success : x.reply () = .ok ()) : files.written x target content = files.put target content := by
  unfold FileChoice.reply at success
  unfold LocalFiles.written
  split
  · rfl
  · next failed _ => rw [failed] at success; cases success
  · next failed _ => rw [failed] at success; cases success

theorem written_elsewhere (x : FileChoice) {target other : String} (content : Bytes)
    (differs : other ≠ target) : (files.written x target content).content other = files.content other := by
  unfold LocalFiles.written
  split
  · exact Function.update_of_ne differs _ _
  · exact Function.update_of_ne differs _ _
  · rfl

theorem ends_writeKeyFile {key : Bytes} (strong : key.length = keyBytes) (target : String)
    (silent : files.warnings = before.warnings) :
    Always localStep (writeKeyFile key target) files (Ends path before fun _ after =>
      KeyAt py target key after ∧ ∀ other, other ≠ target →
        after.content other = files.content other) := by
  rw [writeKeyFile, if_neg (not_not.mpr strong)]
  apply ends_bind (ends_request (.mkdirParents (parentOf target)) trivial silent)
  rintro reply after - ⟨x, rfl, rfl⟩
  apply ends_bind (ends_orInventoryError _ _ silent)
  rintro _ after - ⟨rfl, -⟩
  apply ends_bind (ends_request (.writeBytes target (Base64.encode key)) trivial silent)
  rintro reply after still ⟨x, rfl, rfl⟩
  apply ends_bind (ends_orInventoryError _ _ still)
  rintro _ after - ⟨rfl, success⟩
  apply ends_bind (ends_request (.chmod target 0o600) trivial still)
  rintro reply after last ⟨y, rfl, rfl⟩
  apply ends_done last
  constructor
  · refine ⟨Base64.encode key, ?_, keyOf_encode py target strong⟩
    simp only [localStep, written_ok success, LocalFiles.put, Function.update_self]
  · intro other differs
    exact written_elsewhere x _ differs

theorem ends_loadOrCreateKey (key : String) (silent : files.warnings = before.warnings)
    (kept : files.content path = before.content path) :
    Always localStep (loadOrCreateKey py key) files (Ends path before fun value after =>
      KeyAt py key value after ∧ ∀ other, other ≠ key →
        after.content other = files.content other) := by
  apply ends_bind (ends_request (.isFile key) trivial silent)
  rintro reply after - ⟨x, rfl, rfl⟩
  apply ends_bind (ends_orRaise _ silent kept)
  rintro present after - ⟨rfl, -⟩
  cases present with
  | true =>
    apply ends_mono (ends_loadKey key silent kept)
    rintro value after ⟨rfl, holds⟩
    exact ⟨holds, fun _ _ => rfl⟩
  | false =>
    apply ends_bind (ends_request (.randomBytes keyBytes) trivial silent)
    rintro fresh after - ⟨y, rfl, rfl⟩
    apply ends_bind (ends_writeKeyFile (y.random keyBytes).property key silent)
    intro _ after quiet held
    exact ends_done quiet held

theorem ends_readLocalManifest {aead : Aead} (silent : files.warnings = before.warnings)
    (kept : files.content path = before.content path) :
    Always localStep (readLocalManifest py aead config) files (Ends path before fun _ after =>
      files = after) := by
  apply ends_bind (ends_request (.isFile config.inventory.manifestFile) trivial silent)
  rintro reply after - ⟨x, rfl, rfl⟩
  apply ends_bind (ends_orRaise _ silent kept)
  rintro present after - ⟨rfl, -⟩
  cases present with
  | true =>
    apply ends_bind (ends_loadKey config.inventory.keyFile silent kept)
    rintro key after - ⟨rfl, -⟩
    apply ends_bind (ends_request (.readBytes config.inventory.manifestFile) trivial silent)
    rintro reply after - ⟨y, rfl, rfl⟩
    apply ends_bind (ends_orInventoryError _ _ silent)
    rintro blob after - ⟨rfl, -⟩
    apply ends_mono (ends_ofExcept (decryptRecords py aead blob key) silent kept)
    exact fun _ _ ended => ended.1
  | false => exact ends_done silent rfl

/-- The manifest reads as the records, under a key that the key file holds unless the
manifest took its place. -/
def ManifestReads (py : Interpreter) (aead : Aead) (config : ClusterConfig)
    (records : List (Record Content)) (files : LocalFiles) : Prop :=
  ∃ key blob, files.content config.inventory.manifestFile = some blob ∧
    decryptRecords py aead blob key = .ok records ∧
    (config.inventory.keyFile ≠ config.inventory.manifestFile →
      KeyAt py config.inventory.keyFile key files)

theorem ends_writeLocalManifest {aead : Aead} (opens : aead.Opens) (tagged : aead.Tagged)
    (records : List (Record Content)) (silent : files.warnings = before.warnings)
    (kept : files.content config.inventory.manifestFile =
      before.content config.inventory.manifestFile) :
    Always localStep (writeLocalManifest py aead config records) files
      (Ends config.inventory.manifestFile before fun _ after =>
        ManifestReads py aead config (records.map (Record.map rejoin)) after) := by
  apply ends_bind (ends_loadOrCreateKey config.inventory.keyFile silent kept)
  rintro key middle quiet ⟨holds, others⟩
  apply ends_bind (ends_request (.randomBytes nonceBytes) trivial quiet)
  rintro nonce after - ⟨x, rfl, rfl⟩
  obtain ⟨blob, written, reads⟩ := decryptRecords_encryptRead py opens tagged holds.strong
    (x.random nonceBytes).property records
  have made : (Prog.ofExcept (encryptRead aead records key (x.random nonceBytes).val) :
      FileProg Bytes) = .done blob := by
    rw [written]
    rfl
  dsimp only [localStep]
  rw [made]
  apply ends_bind (ends_request (.mkdirParents (parentOf config.inventory.manifestFile))
    trivial quiet)
  rintro reply after - ⟨y, rfl, rfl⟩
  apply ends_bind (ends_orInventoryError _ _ quiet)
  rintro _ after - ⟨rfl, -⟩
  apply ends_bind (ends_request (.writeBytes config.inventory.manifestFile blob) trivial quiet)
  rintro reply after last ⟨z, rfl, rfl⟩
  apply ends_mono (ends_orInventoryError _ _ last)
  rintro _ after ⟨rfl, success⟩
  refine ⟨key, blob, ?_, reads, ?_⟩
  · simp only [localStep, written_ok success, LocalFiles.put, Function.update_self]
  · intro differs
    obtain ⟨bytes, present, known⟩ := holds
    exact ⟨bytes, (written_elsewhere z blob differs).trans present, known⟩

/-- Every record is of a removed host, and every host of the configuration has one. -/
def AllRemoved (config : ClusterConfig) (records : List (Record Content)) : Prop :=
  (∀ record ∈ records, record.status = pyText "Removed" ∧ record.state = pyText "Inactive") ∧
    ∀ host ∈ config.allHosts, pyText host.hostname ∈ records.map Record.hostname

theorem allRemoved_removedRecords (timestamp : String) (config : ClusterConfig)
    (records : List (Record Content)) :
    AllRemoved config ((removedRecords pyText timestamp config records).map (Record.map rejoin)) := by
  constructor
  · intro record member
    obtain ⟨written, present, rfl⟩ := List.mem_map.mp member
    have marked : ∀ record ∈ removedRecords pyText timestamp config records,
        record.status = pyText "Removed" ∧ record.state = pyText "Inactive" := by
      apply forall_removeUnseen
      · exact forall_removeListed fun _ _ => ⟨rfl, rfl⟩
      · exact fun _ _ => ⟨rfl, rfl⟩
    obtain ⟨status, state⟩ := marked written present
    exact ⟨(congrArg rejoin status).trans (rejoin_pyText _),
      (congrArg rejoin state).trans (rejoin_pyText _)⟩
  · intro host member
    have listed := hosts_removedRecords pyText timestamp config records host member
    obtain ⟨record, present, same⟩ := List.mem_map.mp listed
    rw [List.map_map]
    refine List.mem_map.mpr ⟨record, present, ?_⟩
    exact (congrArg rejoin same).trans (rejoin_pyText _)

theorem ends_markLocalManifest {aead : Aead} (opens : aead.Opens) (tagged : aead.Tagged)
    (files : LocalFiles) :
    Always localStep (markLocalManifest py aead config) files
      (Ends config.inventory.manifestFile files fun _ after =>
        ∃ records, AllRemoved config records ∧ ManifestReads py aead config records after) := by
  apply ends_bind (ends_request .utcTimestamp trivial rfl)
  rintro timestamp after - ⟨x, rfl, rfl⟩
  apply ends_bind (ends_readLocalManifest rfl rfl)
  rintro records after quiet rfl
  apply ends_bind (ends_writeLocalManifest opens tagged _ quiet rfl)
  intro _ after still reads
  exact ends_done still ⟨_, allRemoved_removedRecords _ config records, reads⟩

end Ends

end VmDeploy.Inventory
