import VmDeploy.Provision.Teardown

/-! What a reader finds of the local manifest when writing it fails or stops anywhere. -/

set_option autoImplicit false

open Effects Python

namespace VmDeploy.Inventory

open Json

/-- `open(path, "wb")`, one byte and `close`, and every request that is not a write. -/
inductive DiskOp where
  | file (op : FileOp)
  | openWriting (path : String)
  | append (path : String) (byte : UInt8)
  | close (path : String)

abbrev DiskOp.Reply : DiskOp → Type
  | .file op => op.Reply
  | .openWriting _ => Except String Unit
  | .append _ _ => Except String Unit
  | .close _ => Except String Unit

abbrev diskSignature : Signature :=
  ⟨DiskOp, DiskOp.Reply⟩

abbrev DiskProg (A : Type) :=
  Prog diskSignature PyError A

def disk (op : DiskOp) : DiskProg op.Reply :=
  Prog.perform (I := diskSignature) op

def appendAll (path : String) : Bytes → DiskProg (Except String Unit)
  | [] => disk (.close path)
  | byte :: rest => do
      match ← disk (.append path byte) with
      | .error exc => pure (.error exc)
      | .ok () => appendAll path rest

/-- `path.write_bytes(content)` -/
def writeBytesTo (path : String) (content : Bytes) : DiskProg (Except String Unit) := do
  match ← disk (.openWriting path) with
  | .error exc => pure (.error exc)
  | .ok () => appendAll path content

def byBytes : (op : FileOp) → DiskProg op.Reply
  | .writeBytes path content => writeBytesTo path content
  | .isFile path => disk (.file (.isFile path))
  | .readBytes path => disk (.file (.readBytes path))
  | .mkdirParents path => disk (.file (.mkdirParents path))
  | .chmod path mode => disk (.file (.chmod path mode))
  | .utcTimestamp => disk (.file .utcTimestamp)
  | .randomBytes count => disk (.file (.randomBytes count))
  | .warn message => disk (.file (.warn message))

/-- The files, and the paths whose last write has not come to its end. -/
structure Disk where
  files : LocalFiles
  unfinished : List String

def Disk.grow (w : Disk) (path : String) (byte : UInt8) : Disk :=
  { w with files := w.files.put path ((w.files.content path).getD [] ++ [byte]) }

def diskStep : Step diskSignature Disk FileChoice
  | x, .file op, w => ((localStep x op w.files).1, { w with files := (localStep x op w.files).2 })
  | x, .openWriting path, w =>
      match x.fails with
      | some message => (.error message, w)
      | none => (.ok (), ⟨w.files.put path [], path :: w.unfinished⟩)
  | x, .append path byte, w =>
      match x.fails with
      | some message => (.error message, w)
      | none => (.ok (), w.grow path byte)
  | x, .close path, w =>
      match x.fails with
      | some message => (.error message, w)
      | none => (.ok (), { w with unfinished := w.unfinished.filter (· ≠ path) })

/-- `write_local_manifest` with its writes made byte by byte. -/
def writeManifest (py : Interpreter) (aead : Aead) (config : ClusterConfig)
    (records : List (Record Content)) : DiskProg Unit :=
  (writeLocalManifest py aead config records).refine byBytes

/-- What `read_local_manifest` makes of the files: no manifest is no records. -/
def ManifestHolds (py : Interpreter) (aead : Aead) (config : ClusterConfig)
    (records : List (Record Content))
    (files : LocalFiles) : Prop :=
  (files.content config.inventory.manifestFile = none ∧ records = []) ∨
    ∃ key blob, files.content config.inventory.manifestFile = some blob ∧
      KeyAt py config.inventory.keyFile key files ∧ decryptRecords py aead blob key = .ok records

/-- The manifest decrypts to the prior records or to the new ones, and to the prior ones if an
`InventoryError` is raised. -/
def Atomic (py : Interpreter) (aead : Aead) (config : ClusterConfig)
    (prior records : List (Record Content)) (outcome : Outcome PyError Unit) (after : Disk) : Prop :=
  (ManifestHolds py aead config prior after.files ∨
    ManifestHolds py aead config records after.files) ∧
    ∀ error, outcome = .raised error → error.inventoryText ≠ none →
      ManifestHolds py aead config prior after.files

/-- The manifest was not opened for writing, or it was written up to its end. -/
def Uncut (config : ClusterConfig) (after : Disk) : Prop :=
  config.inventory.manifestFile ∉ after.unfinished

/-- No text has half a surrogate pair in front of the other half. -/
def Joined (records : List (Record Content)) : Prop :=
  records.map (Record.map rejoin) = records

section Writes

variable {w : Disk} {path : String}

def Elsewhere (path : String) (w after : Disk) : Prop :=
  ∀ other, other ≠ path → after.files.content other = w.files.content other

/-- A write that has not come to its end: it has not begun, or it is still unfinished. -/
def Torn (path : String) (w after : Disk) : Prop :=
  after = w ∨ path ∈ after.unfinished ∧ Elsewhere path w after

theorem Elsewhere.put {after : Disk} (elsewhere : Elsewhere path w after) (content : Bytes)
    (unfinished : List String) : Elsewhere path w ⟨after.files.put path content, unfinished⟩ := by
  intro other differs
  rw [← elsewhere other differs]
  exact Function.update_of_ne differs _ _

theorem ends_appendAll {start : Disk} (content done : Bytes) (elsewhere : Elsewhere path start w)
    (opened : path ∈ w.unfinished) (written : w.files.content path = some done) :
    Always diskStep (appendAll path content) w
      (Effects.Ends (Torn path start) fun reply after =>
        (∀ exc, reply = .error exc → Torn path start after) ∧
        (reply = .ok () → Elsewhere path start after ∧
          after.files.content path = some (done ++ content))) := by
  induction content generalizing w done with
  | nil =>
    refine always_call (.inr ⟨opened, elsewhere⟩) fun x => ?_
    simp only [diskStep]
    cases x.fails with
    | some message => exact always_done ⟨fun _ _ => .inr ⟨opened, elsewhere⟩, nofun⟩
    | none =>
      refine always_done ⟨nofun, fun _ => ⟨elsewhere, ?_⟩⟩
      rw [List.append_nil]
      exact written
  | cons byte rest ih =>
    refine always_call (.inr ⟨opened, elsewhere⟩) fun x => ?_
    simp only [diskStep]
    cases x.fails with
    | some message => exact always_done ⟨fun _ _ => .inr ⟨opened, elsewhere⟩, nofun⟩
    | none =>
      have grown : (w.grow path byte).files.content path = some (done ++ [byte]) := by
        simp [Disk.grow, LocalFiles.put, written]
      have later := ih (w := w.grow path byte) (done ++ [byte]) (elsewhere.put _ _) opened grown
      rw [List.append_assoc, List.singleton_append] at later
      exact later

theorem ends_writeBytesTo (content : Bytes) :
    Always diskStep (writeBytesTo path content) w
      (Effects.Ends (Torn path w) fun reply after =>
        (∀ exc, reply = .error exc → Torn path w after) ∧
        (reply = .ok () → Elsewhere path w after ∧ after.files.content path = some content)) := by
  refine always_call (.inl rfl) fun x => ?_
  simp only [diskStep]
  cases x.fails with
  | some message => exact always_done ⟨fun _ _ => .inl rfl, nofun⟩
  | none =>
    have same : Elsewhere path w w := fun _ _ => rfl
    have opened : path ∈ path :: w.unfinished := List.mem_cons_self
    exact ends_appendAll content [] (same.put [] _) opened (Function.update_self _ _ _)

end Writes

section Reads

variable {w : Disk} {A : Type}

def FileOp.Reads : FileOp → Prop
  | .writeBytes _ _ => False
  | _ => True

-- A program without writes is the same program on a disk.
theorem always_reads {p : FileProg A} (only : p.Only FileOp.Reads)
    {post : Outcome PyError A → LocalFiles → Prop} (always : Always localStep p w.files post) :
    Always diskStep (p.refine byBytes) w (fun outcome after =>
      post outcome after.files ∧ after.files.content = w.files.content) := by
  induction p generalizing w with
  | done value => exact always_done ⟨always [], rfl⟩
  | raise error => exact always_raise ⟨always [], rfl⟩
  | halt => exact always_halt ⟨always [], rfl⟩
  | call op rest ih =>
    have later : ∀ x, Always diskStep ((rest (localStep x op w.files).1).refine byBytes)
        { w with files := (localStep x op w.files).2 } (fun outcome after =>
          post outcome after.files ∧ after.files.content = (localStep x op w.files).2.content) :=
      fun x => ih _ (only.2 _) (fun script => always (x :: script))
    cases op with
    | writeBytes path content => exact only.1.elim
    | _ => exact always_call ⟨always [], rfl⟩ later

end Reads

section Run

variable {py : Interpreter} {aead : Aead} {config : ClusterConfig} {start w : Disk} {A : Type}

/-- The manifest is as it was, and the key file still holds the key that it held. -/
structure Kept (py : Interpreter) (config : ClusterConfig) (start w : Disk) : Prop where
  manifest : w.files.content config.inventory.manifestFile =
    start.files.content config.inventory.manifestFile
  keys : ∀ key, KeyAt py config.inventory.keyFile key start.files →
    KeyAt py config.inventory.keyFile key w.files

theorem Kept.holds {records : List (Record Content)} (kept : Kept py config start w)
    (holds : ManifestHolds py aead config records start.files) :
    ManifestHolds py aead config records w.files := by
  rcases holds with ⟨absent, none⟩ | ⟨key, blob, present, known, reads⟩
  · exact .inl ⟨kept.manifest.trans absent, none⟩
  · exact .inr ⟨key, blob, kept.manifest.trans present, kept.keys key known, reads⟩

theorem Kept.of_content {after : Disk} (kept : Kept py config start w)
    (same : after.files.content = w.files.content) : Kept py config start after := by
  constructor
  · rw [same]
    exact kept.manifest
  · intro key known
    obtain ⟨bytes, present, decodes⟩ := kept.keys key known
    exact ⟨bytes, by rw [same]; exact present, decodes⟩

theorem Kept.of_elsewhere {after : Disk} (kept : Kept py config start w)
    (separate : config.inventory.keyFile ≠ config.inventory.manifestFile)
    (absent : start.files.content config.inventory.keyFile = none)
    (elsewhere : Elsewhere config.inventory.keyFile w after) : Kept py config start after := by
  constructor
  · rw [elsewhere _ separate.symm]
    exact kept.manifest
  · intro key known
    obtain ⟨bytes, present, -⟩ := known
    rw [absent] at present
    cases present

theorem ends_orInventory (doing : String) (reply : Except String A) {other : Disk → Prop}
    (fails : ∀ exc, reply = .error exc → other w) :
    Always diskStep ((orInventoryError doing reply).refine byBytes) w
      (Effects.Ends other fun value after => after = w ∧ reply = .ok value) := by
  cases reply with
  | ok value => exact always_done ⟨rfl, rfl⟩
  | error exc => exact always_raise (fails exc rfl)

theorem ends_loadKey_disk (kept : Kept py config start w) :
    Always diskStep ((loadKey py config.inventory.keyFile).refine byBytes) w
      (Effects.Ends (Kept py config start) fun key after =>
        Kept py config start after ∧ KeyAt py config.inventory.keyFile key after.files) := by
  have only : (loadKey py config.inventory.keyFile).Only FileOp.Reads := by
    refine Prog.Only.bind ⟨trivial, fun _ => trivial⟩ fun reply => ?_
    refine Prog.Only.bind ?_ fun bytes => ?_
    · cases reply <;> trivial
    · cases keyOf py config.inventory.keyFile bytes <;> trivial
  have loads : Always localStep (loadKey py config.inventory.keyFile) w.files
      (Ends config.inventory.manifestFile w.files _) :=
    ends_loadKey config.inventory.keyFile rfl rfl
  refine Always.mono (always_reads only loads) ?_
  rintro outcome after ⟨ended, same⟩
  cases outcome with
  | returned key =>
    obtain ⟨-, files, known⟩ := ended
    exact ⟨kept.of_content same, files ▸ known⟩
  | raised error => exact kept.of_content same
  | stopped => exact kept.of_content same

theorem ends_request_disk {op : FileOp} {rest : op.Reply → FileProg A} {other : Disk → Prop}
    {post : A → Disk → Prop} (reads : op.Reads) (here : other w)
    (next : ∀ x, Always diskStep ((rest (localStep x op w.files).1).refine byBytes)
      { w with files := (localStep x op w.files).2 } (Effects.Ends other post)) :
    Always diskStep (((request op).bind rest).refine byBytes) w (Effects.Ends other post) := by
  cases op with
  | writeBytes path content => exact reads.elim
  | _ => exact always_call (by exact here) next

theorem ends_write_disk {path : String} {content : Bytes} {rest : Except String Unit → FileProg A}
    {other : Disk → Prop} {middle : Except String Unit → Disk → Prop} {post : A → Disk → Prop}
    (write : Always diskStep (writeBytesTo path content) w (Effects.Ends other middle))
    (next : ∀ reply after, middle reply after →
      Always diskStep ((rest reply).refine byBytes) after (Effects.Ends other post)) :
    Always diskStep (((request (.writeBytes path content)).bind rest).refine byBytes) w
      (Effects.Ends other post) :=
  Effects.ends_bind write next

theorem ends_writeKeyFile_disk {key : Bytes} (kept : Kept py config start w)
    (separate : config.inventory.keyFile ≠ config.inventory.manifestFile)
    (absent : start.files.content config.inventory.keyFile = none) (strong : key.length = keyBytes) :
    Always diskStep ((writeKeyFile key config.inventory.keyFile).refine byBytes) w
      (Effects.Ends (Kept py config start) fun _ after =>
        Kept py config start after ∧ KeyAt py config.inventory.keyFile key after.files) := by
  rw [writeKeyFile, if_neg (not_not.mpr strong)]
  refine ends_request_disk trivial kept fun x => ?_
  rw [Prog.bind_eq, Prog.refine_bind]
  refine Effects.ends_bind (ends_orInventory _ _ fun _ _ => kept) ?_
  rintro _ _ ⟨rfl, -⟩
  have torn : ∀ after, Torn config.inventory.keyFile w after → Kept py config start after := by
    rintro after (rfl | ⟨-, elsewhere⟩)
    · exact kept
    · exact kept.of_elsewhere separate absent elsewhere
  have writes : Always diskStep (writeBytesTo config.inventory.keyFile (Base64.encode key)) w
      (Effects.Ends (Kept py config start) fun reply after => Kept py config start after ∧
        (reply = .ok () → KeyAt py config.inventory.keyFile key after.files)) := by
    refine Always.mono (ends_writeBytesTo _) ?_
    intro outcome after ended
    cases outcome with
    | returned reply =>
      obtain ⟨fails, success⟩ := ended
      cases reply with
      | error exc => exact ⟨torn after (fails exc rfl), by simp⟩
      | ok _ =>
        obtain ⟨elsewhere, present⟩ := success rfl
        exact ⟨kept.of_elsewhere separate absent elsewhere,
          fun _ => ⟨_, present, keyOf_encode py config.inventory.keyFile strong⟩⟩
    | raised error => exact torn after ended
    | stopped => exact torn after ended
  refine ends_write_disk writes ?_
  rintro reply after ⟨kept, known⟩
  rw [Prog.bind_eq, Prog.refine_bind]
  refine Effects.ends_bind (ends_orInventory _ reply fun _ _ => kept) ?_
  rintro _ _ ⟨rfl, success⟩
  refine ends_request_disk trivial kept fun y => ?_
  exact always_done ⟨kept.of_content rfl, known success⟩

theorem ends_loadOrCreateKey_disk
    (separate : config.inventory.keyFile ≠ config.inventory.manifestFile) :
    Always diskStep ((loadOrCreateKey py config.inventory.keyFile).refine byBytes) start
      (Effects.Ends (Kept py config start) fun key after =>
        Kept py config start after ∧ KeyAt py config.inventory.keyFile key after.files) := by
  have kept : Kept py config start start := ⟨rfl, fun _ known => known⟩
  refine ends_request_disk trivial kept fun x => ?_
  simp only [localStep]
  cases found : x.reply (start.files.content config.inventory.keyFile).isSome with
  | error exc => exact always_raise kept
  | ok present =>
    have known : present = (start.files.content config.inventory.keyFile).isSome := by
      unfold FileChoice.reply at found
      split at found
      · cases found
      · exact (Except.ok.inj found).symm
    cases present with
    | true => exact ends_loadKey_disk kept
    | false =>
      have absent : start.files.content config.inventory.keyFile = none := by
        simpa using known.symm
      refine ends_request_disk trivial kept fun y => ?_
      rw [Prog.bind_eq, Prog.refine_bind]
      refine Effects.ends_bind (ends_writeKeyFile_disk kept separate absent
        (y.random keyBytes).property) ?_
      exact fun _ _ held => always_done held

def Unwritten (py : Interpreter) (config : ClusterConfig) (start after : Disk) : Prop :=
  Kept py config start after ∨ config.inventory.manifestFile ∈ after.unfinished

theorem ends_writeManifest (opens : aead.Opens) (tagged : aead.Tagged)
    (separate : config.inventory.keyFile ≠ config.inventory.manifestFile)
    (records : List (Record Content)) :
    Always diskStep (writeManifest py aead config records) start
      (Effects.Ends (Unwritten py config start) fun _ after =>
        ManifestHolds py aead config (records.map (Record.map rejoin)) after.files) := by
  unfold writeManifest writeLocalManifest
  rw [Prog.bind_eq, Prog.refine_bind]
  have creates : Always diskStep ((loadOrCreateKey py config.inventory.keyFile).refine byBytes) start
      (Effects.Ends (Unwritten py config start) fun key after =>
        Kept py config start after ∧ KeyAt py config.inventory.keyFile key after.files) := by
    refine Always.mono (ends_loadOrCreateKey_disk separate) ?_
    intro outcome after ended
    cases outcome with
    | returned key => exact ended
    | raised error => exact .inl ended
    | stopped => exact .inl ended
  refine Effects.ends_bind creates ?_
  rintro key w ⟨kept, known⟩
  refine ends_request_disk trivial (.inl kept) fun x => ?_
  obtain ⟨blob, written, reads⟩ := decryptRecords_encryptRead py opens tagged known.strong
    (x.random nonceBytes).property records
  simp only [localStep, written, Prog.ofExcept]
  refine ends_request_disk trivial (.inl kept) fun y => ?_
  rw [Prog.bind_eq, Prog.refine_bind]
  refine Effects.ends_bind (ends_orInventory _ _ fun _ _ => .inl kept) ?_
  rintro _ _ ⟨rfl, -⟩
  have torn : ∀ after, Torn config.inventory.manifestFile w after →
      Unwritten py config start after := by
    rintro after (rfl | ⟨unfinished, -⟩)
    · exact .inl kept
    · exact .inr unfinished
  have writes : Always diskStep (writeBytesTo config.inventory.manifestFile blob) w
      (Effects.Ends (Unwritten py config start) fun reply after =>
        (∀ exc, reply = .error exc → Unwritten py config start after) ∧
        (reply = .ok () → ManifestHolds py aead config (records.map (Record.map rejoin)) after.files)) := by
    refine Always.mono (ends_writeBytesTo _) ?_
    intro outcome after ended
    cases outcome with
    | returned reply =>
      refine ⟨fun exc failed => torn after (ended.1 exc failed), fun success => ?_⟩
      obtain ⟨elsewhere, present⟩ := ended.2 success
      obtain ⟨bytes, found, decodes⟩ := known
      exact .inr ⟨key, blob, present, ⟨bytes, (elsewhere _ separate).trans found, decodes⟩, reads⟩
    | raised error => exact torn after ended
    | stopped => exact torn after ended
  refine ends_write_disk writes ?_
  rintro reply after ⟨fails, success⟩
  cases reply with
  | ok _ => exact always_done (success rfl)
  | error exc => exact always_raise (fails exc rfl)

end Run

/-- In every run that does not end within the write of the manifest, the manifest decrypts to
the prior records or to the new ones, and an `InventoryError` leaves the prior ones. -/
theorem write_local_manifest_atomic {py : Interpreter} {aead : Aead} {config : ClusterConfig}
    (opens : aead.Opens) (tagged : aead.Tagged)
    (separate : config.inventory.keyFile ≠ config.inventory.manifestFile)
    {prior records : List (Record Content)} (joined : Joined records) {start : Disk}
    (holds : ManifestHolds py aead config prior start.files) :
    Always diskStep (writeManifest py aead config records) start (fun outcome after =>
      Uncut config after → Atomic py aead config prior records outcome after) := by
  refine Always.mono (ends_writeManifest opens tagged separate records) ?_
  intro outcome after ended uncut
  have untouched : Unwritten py config start after → ManifestHolds py aead config prior after.files := by
    rintro (kept | cut)
    · exact kept.holds holds
    · exact absurd cut uncut
  cases outcome with
  | returned value =>
    rw [show records.map (Record.map rejoin) = records from joined] at ended
    exact ⟨.inr ended, nofun⟩
  | raised error => exact ⟨.inl (untouched ended), fun _ _ _ => untouched ended⟩
  | stopped => exact ⟨.inl (untouched ended), nofun⟩

theorem not_holds_empty {py : Interpreter} {aead : Aead} {config : ClusterConfig}
    {files : LocalFiles} (empty : files.content config.inventory.manifestFile = some []) (records : List (Record Content)) :
    ¬ ManifestHolds py aead config records files := by
  rintro (⟨absent, -⟩ | ⟨key, blob, present, known, reads⟩)
  · rw [empty] at absent
    cases absent
  · rw [empty, Option.some.injEq] at present
    rw [← present, decryptRecords, openPayload, if_neg (not_not.mpr known.strong)] at reads
    cases reads

open Provision

def deployedDisk : Disk :=
  ⟨exampleDesk.files, []⟩

theorem deployed_holds : ManifestHolds exampleInterpreter deployedAead exampleTeardown
    [exampleDeployed.map pyText] deployedDisk.files := by
  refine .inr ⟨exampleKey, deployedPayload, rfl, ?_, ?_⟩
  · exact ⟨Base64.encode exampleKey, rfl, keyOf_encode _ _ rfl⟩
  · exact (payload_reads (sampled_opens deployedSample_consistent)
      (sampled_tagged deployedSample_consistent) exampleInterpreter exampleTexts rfl rfl
      asciiEscape_escapes mem_sortedFields [exampleDeployed]).2

theorem deployed_write_atomic : Always diskStep
    (writeManifest exampleInterpreter deployedAead exampleTeardown []) deployedDisk
    (fun outcome after => Uncut exampleTeardown after →
      Atomic exampleInterpreter deployedAead exampleTeardown [exampleDeployed.map pyText] [] outcome
        after) :=
  write_local_manifest_atomic (sampled_opens deployedSample_consistent)
    (sampled_tagged deployedSample_consistent) (by decide) (show Joined [] from rfl) deployed_holds

def fullDisk : Outcome PyError Unit × Disk :=
  (writeManifest exampleInterpreter deployedAead exampleTeardown []).eval diskStep deployedDisk
    (List.replicate 5 (meeting none) ++ [meeting (some "No space left on device")])

theorem full_disk_loses_the_manifest :
    fullDisk.1 = .raised (.inventoryError
      "Cannot write local manifest to inventory.enc: No space left on device") ∧
    ¬ Atomic exampleInterpreter deployedAead exampleTeardown [exampleDeployed.map pyText] []
      fullDisk.1 fullDisk.2 := by
  refine ⟨by decide, ?_⟩
  have empty : fullDisk.2.files.content exampleTeardown.inventory.manifestFile = some [] := by
    rfl
  rintro ⟨prior | records, -⟩
  · exact not_holds_empty empty _ prior
  · exact not_holds_empty empty _ records

end VmDeploy.Inventory
