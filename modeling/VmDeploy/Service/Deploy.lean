import VmDeploy.Inventory.KeyFile
import VmDeploy.Service.Build
import VmDeploy.Setup.CloudInit

/-! `deploy_service`: the key of the client reaches the station. -/

set_option autoImplicit false

open Effects Python Shell

namespace VmDeploy.Service

open Remote Inventory

def serviceUnit : String := s!"/etc/systemd/system/{serviceName}.service"

def serviceGroup : String := "vmdeploy-inventory"

def remoteKey (config : ClusterConfig) : String :=
  s!"{config.inventory.remoteDir}/{String.ofList (pathName config.inventory.keyFile.toList)}"

def renderUnit (config : ClusterConfig) : String :=
  let inventory := config.inventory
  let binary := s!"{inventory.remoteDir}/{serviceName}"
  "# Managed by vmdeploy. Manual edits are overwritten on redeploy.\n" ++
  "[Unit]\n" ++
  "Description=Encrypted cluster inventory service\n" ++
  "After=network-online.target\n" ++
  "Wants=network-online.target\n" ++
  "\n" ++
  "[Service]\n" ++
  "Type=simple\n" ++
  s!"ExecStart={binary} \\\n" ++
  s!"    -addr :{inventory.servicePort} \\\n" ++
  s!"    -key {remoteKey config} \\\n" ++
  s!"    -store {inventory.remoteDir}/{inventory.datastoreName}\n" ++
  "Restart=on-failure\n" ++
  "RestartSec=5s\n" ++
  "\n" ++
  "# The service reads one key and one datastore; nothing else needs to be\n" ++
  "# reachable, so the sandbox is tightened to match.\n" ++
  "DynamicUser=yes\n" ++
  s!"SupplementaryGroups={serviceGroup}\n" ++
  "NoNewPrivileges=yes\n" ++
  "PrivateTmp=yes\n" ++
  "ProtectSystem=strict\n" ++
  "ProtectHome=yes\n" ++
  s!"ReadWritePaths={inventory.remoteDir}\n" ++
  "ProtectKernelTunables=yes\n" ++
  "ProtectControlGroups=yes\n" ++
  "RestrictAddressFamilies=AF_INET AF_INET6\n" ++
  "RestrictNamespaces=yes\n" ++
  "MemoryDenyWriteExecute=yes\n" ++
  "\n" ++
  "[Install]\n" ++
  "WantedBy=multi-user.target\n"

section Deploy

variable (host : RemoteHost) (config : ClusterConfig)

def prepareInstallDir : List Line :=
  let dir := config.inventory.remoteDir
  [program ["groupadd", "-f", serviceGroup], program ["mkdir", "-p", dir],
    program ["chgrp", serviceGroup, dir], program ["chmod", "2770", dir]]

def grantKey : List Line :=
  [program ["chgrp", serviceGroup, remoteKey config],
    program ["chmod", "0640", remoteKey config]]

def startUnit : List Line :=
  [program ["systemctl", "daemon-reload"], program ["systemctl", "enable", s!"{serviceName}.service"],
    program ["systemctl", "restart", s!"{serviceName}.service"]]

def askActive : Line :=
  program ["systemctl", "is-active", s!"{serviceName}.service"]

def readJournal : Line :=
  program ["journalctl", "-u", s!"{serviceName}.service", "--no-pager", "-n", "40"]

def requireActive : RemoteProg Unit := do
  let active ← host.run (.plain askActive) false none
  if stripped active.stdout ≠ "active" then do
    let journal ← host.sudo readJournal false none
    let state := strippedOr active.stdout "unknown"
    .raise (.vmDeployError (s!"Inventory service failed to start on {host.address}: " ++
      s!"{state}\n{stripped journal.stdout}"))
  else
    pure ()

/-- What follows `load_or_create_key`. -/
def installKey (key : Bytes) : RemoteProg Unit := do
  host.putBytes (encodeKey key) (remoteKey config) 0o640
  sudoAll host (grantKey config)
  host.putBytes (Utf8.encode (renderUnit config).toList) serviceUnit 0o644
  sudoAll host startUnit
  requireActive host

abbrev deploySignature : Signature :=
  (remoteSignature.sum localSignature).sum fileSignature

variable (py : Interpreter) (sha256 : Bytes → Bytes) (cacheDir sourceDir : String)

def deployService : Prog deploySignature PyError Unit := do
  (onGuest (sudoAll host (prepareInstallDir config))).liftLeft
  let _ ← (ensureServiceBinary sha256 host sourceDir cacheDir config).liftLeft
  let key ← (loadOrCreateKey py config.inventory.keyFile).liftRight
  (onGuest (installKey host config key)).liftLeft

end Deploy

/-- The files of the station and those of the client. -/
structure Hosts where
  station : Setup.ImageFiles
  client : LocalFiles

def answerStep : Step localSignature Setup.ImageFiles ((op : LocalOp) → op.Reply)
  | x, op, files => (x op, files)

def deployStep (policy : Policy) (env : Option String) :
    Step deploySignature Hosts
      ((Setup.ArmChoice × ((op : LocalOp) → op.Reply)) × FileChoice) :=
  (((Setup.armStep policy env).sum answerStep).focus Hosts.station
      fun hosts files => { hosts with station := files }).sum
    (Inventory.localStep.focus Hosts.client fun hosts files => { hosts with client := files })

section Station

variable {policy : Policy} {env : Option String} {host : RemoteHost} {config : ClusterConfig}
  {files : Setup.ImageFiles} {inv : Setup.ImageFiles → Prop}

/-- A command that the model of the guest's files has no effect for. -/
def Untracked (line : Line) : Prop :=
  Single line ∧ Setup.deedOf line.head = .other

theorem perform_untracked {line : Line} (untracked : Untracked line) (x : Setup.ArmChoice) (who : Privilege)
    (files : Setup.ImageFiles) : (x.perform (.runs who line.head) files).2 = files := by
  simp only [Setup.ArmChoice.perform, untracked.2, Setup.ArmChoice.act]

theorem upholds_sudo_untracked {line : Line} (untracked : Untracked line) (check : Bool) (held : inv files) :
    Upholds (Setup.armStep policy env) (host.sudo line check none) files inv (fun _ _ => True) := by
  refine upholds_sudo_single untracked.1 held ?_ (fun _ _ _ _ => trivial) (fun _ _ _ _ _ => trivial)
  intro x files here
  exact (perform_untracked untracked x .root files).symm ▸ here

theorem upholds_sudoAll {lines : List Line} (untracked : ∀ line ∈ lines, Untracked line) (held : inv files) :
    Upholds (Setup.armStep policy env) (sudoAll host lines) files inv (fun _ _ => True) := by
  induction lines generalizing files with
  | nil => exact upholds_done held trivial
  | cons line rest ih =>
    refine upholds_bind (upholds_sudo_untracked (untracked line List.mem_cons_self) true held) ?_
    exact fun _ _ kept _ => ih (fun later member => untracked later (List.mem_cons_of_mem _ member)) kept

theorem upholds_requireActive (held : inv files) :
    Upholds (Setup.armStep policy env) (requireActive host) files inv (fun _ _ => True) := by
  have asked : Upholds (Setup.armStep policy env) (host.run (.plain askActive) false none) files inv
      (fun _ _ => True) := by
    refine upholds_run held (fun x => ?_) (fun _ _ => trivial)
    rw [ran_plain _ _ (show Single askActive from single_program _)]
    exact held
  refine upholds_bind asked fun active after kept _ => ?_
  split
  · exact upholds_bind (upholds_sudo_untracked ⟨single_program _, rfl⟩ false kept)
      fun _ _ here _ => upholds_raise here
  · exact upholds_done kept trivial

theorem staging_ne {path : String} (lasting : ¬ Setup.Temporary path) (random : List UInt8) :
    stagingPath random ≠ path :=
  fun same => lasting (same ▸ Setup.temporary_staging random)

-- When the service is active, the station's key file holds what `_encode_key` makes of the key.
theorem upholds_installKey (lasting : ¬ Setup.Temporary (remoteKey config))
    (apart : remoteKey config ≠ serviceUnit) (key : Bytes) :
    Upholds (Setup.armStep policy env) (installKey host config key) files (fun _ => True)
      (fun _ after => after (remoteKey config) = some (encodeKey key)) := by
  have unit : ¬ Setup.Temporary serviceUnit := by
    unfold Setup.Temporary
    decide
  have put : Upholds (Setup.armStep policy env)
      (host.putBytes (encodeKey key) (remoteKey config) 0o640) files (fun _ => True)
      (fun _ after => after (remoteKey config) = some (encodeKey key)) :=
    Setup.upholds_putBytes _ _ (staging_ne lasting) (fun _ _ _ _ => trivial)
      (fun _ _ _ => trivial) trivial
  refine upholds_bind put fun _ placed _ here => ?_
  -- Whatever follows writes elsewhere.
  have spares : ∀ path, path ≠ remoteKey config →
      Setup.Spares (fun after => after (remoteKey config) = some (encodeKey key)) path := by
    intro path differs after content kept
    rw [Function.update_of_ne differs.symm]
    exact kept
  have rest : Upholds (Setup.armStep policy env)
      ((sudoAll host (grantKey config)).bind fun _ =>
        (host.putBytes (Utf8.encode (renderUnit config).toList) serviceUnit 0o644).bind fun _ =>
          (sudoAll host startUnit).bind fun _ => requireActive host) placed
      (fun after => after (remoteKey config) = some (encodeKey key)) (fun _ _ => True) := by
    have granted : ∀ line ∈ grantKey config, Untracked line := by
      simp only [grantKey, List.forall_mem_cons]
      exact ⟨⟨single_program _, rfl⟩, ⟨single_program _, rfl⟩, fun _ none => nomatch none⟩
    have started : ∀ line ∈ startUnit, Untracked line := by
      simp only [startUnit, List.forall_mem_cons]
      exact ⟨⟨single_program _, rfl⟩, ⟨single_program _, rfl⟩, ⟨single_program _, rfl⟩,
        fun _ none => nomatch none⟩
    refine upholds_bind (upholds_sudoAll granted here) fun _ _ kept _ => ?_
    have written : Upholds (Setup.armStep policy env)
        (host.putBytes (Utf8.encode (renderUnit config).toList) serviceUnit 0o644) _ _ _ :=
      Setup.upholds_putBytes _ _ (staging_ne unit)
        (fun random => spares _ (staging_ne lasting random)) (spares _ apart.symm) kept
    refine upholds_bind written fun _ _ kept _ => ?_
    refine upholds_bind (upholds_sudoAll started kept) fun _ _ kept _ => ?_
    exact upholds_requireActive kept
  exact rest.mono (fun _ _ => trivial) fun _ _ kept _ => kept

end Station

section Shared

variable {policy : Policy} {env : Option String} {hosts : Hosts} {A : Type}

-- What holds of the client's files holds where the station's are left alone.
theorem upholds_onClient {p : FileProg A} {inv : LocalFiles → Prop} {post : A → LocalFiles → Prop}
    (upholds : Upholds Inventory.localStep p hosts.client inv post) :
    Upholds (deployStep policy env) p.liftRight hosts
      (fun after => after.station = hosts.station ∧ inv after.client)
      (fun value after => post value after.client) := by
  refine Always.mono (always_liftRight (always_focus Hosts.client
    (fun hosts files => { hosts with client := files }) (fun _ _ => rfl) (fun _ => rfl)
    (fun _ _ _ => rfl) upholds)) ?_
  rintro outcome _ ⟨files, rfl, held, returned⟩
  exact ⟨⟨rfl, held⟩, returned⟩

theorem upholds_onStation {p : RemoteProg A} {inv : Setup.ImageFiles → Prop}
    {post : A → Setup.ImageFiles → Prop}
    (upholds : Upholds (Setup.armStep policy env) p hosts.station inv post) :
    Upholds (deployStep policy env) (onGuest p).liftLeft hosts
      (fun after => after.client = hosts.client ∧ inv after.station)
      (fun value after => post value after.station) := by
  have guest : Upholds ((Setup.armStep policy env).sum answerStep) (onGuest p) hosts.station inv post :=
    always_liftLeft upholds
  refine Always.mono (always_liftLeft (always_focus Hosts.station
    (fun hosts files => { hosts with station := files }) (fun _ _ => rfl) (fun _ => rfl)
    (fun _ _ _ => rfl) guest)) ?_
  rintro outcome _ ⟨files, rfl, held, returned⟩
  exact ⟨⟨rfl, held⟩, returned⟩

theorem upholds_loadOrCreateKey (py : Interpreter) (path : String) (files : LocalFiles) :
    Upholds Inventory.localStep (loadOrCreateKey py path) files (fun _ => True)
      (fun key after => KeyAt py path key after) := by
  have made : Always Inventory.localStep (loadOrCreateKey py path) files (Inventory.Ends "" files _) :=
    ends_loadOrCreateKey path rfl rfl
  refine Always.mono made ?_
  intro outcome after ended
  refine ⟨trivial, ?_⟩
  rintro key rfl
  exact ended.2.1

-- When `deploy_service` returns, the key file of the client holds a key, and the service reads
-- that key from the file on the station.
theorem deployed_key_is_shared (policy : Policy) (env : Option String) (host : RemoteHost)
    (config : ClusterConfig) (py : Interpreter) (sha256 : Bytes → Bytes)
    (cacheDir sourceDir : String) (lasting : ¬ Setup.Temporary (remoteKey config))
    (apart : remoteKey config ≠ serviceUnit) (hosts : Hosts) :
    Always (deployStep policy env)
      (deployService host config py sha256 cacheDir sourceDir) hosts fun outcome after =>
        outcome = .returned () → ∃ key content,
          KeyAt py config.inventory.keyFile key after.client ∧
            after.station (remoteKey config) = some content ∧
            ∀ texts path, serviceKeyOf texts path content = .ok key := by
  have any : ∀ {A : Type} (p : Prog deploySignature PyError A) (hosts : Hosts),
      Upholds (deployStep policy env) p hosts (fun _ => True) (fun _ _ => True) :=
    fun p hosts _ => ⟨trivial, fun _ _ => trivial⟩
  have shared : Upholds (deployStep policy env)
      (deployService host config py sha256 cacheDir sourceDir) hosts (fun _ => True)
      (fun _ after => ∃ key, KeyAt py config.inventory.keyFile key after.client ∧
        after.station (remoteKey config) = some (encodeKey key)) := by
    refine upholds_bind (any _ hosts) fun _ _ _ _ => ?_
    refine upholds_bind (any _ _) fun _ prepared _ _ => ?_
    have keyed : Upholds (deployStep policy env)
        (loadOrCreateKey py config.inventory.keyFile).liftRight prepared _ _ :=
      upholds_onClient (upholds_loadOrCreateKey py config.inventory.keyFile prepared.client)
    refine upholds_bind (keyed.mono (fun _ _ => trivial) fun _ _ _ holds => holds) ?_
    intro key made _ holds
    have installed : Upholds (Setup.armStep policy env) (installKey host config key) made.station _ _ :=
      upholds_installKey lasting apart key
    refine (upholds_onStation installed).mono (fun _ _ => trivial) ?_
    exact fun _ after same here => ⟨key, same.1 ▸ holds, here⟩
  refine Always.mono shared ?_
  rintro outcome after ⟨-, returned⟩ same
  obtain ⟨key, holds, here⟩ := returned () same
  refine ⟨key, _, holds, here, ?_⟩
  intro texts path
  have both : BothRead py texts path path (encodeKey key) key := bothRead_encodeKey holds.strong
  exact both.2

end Shared

end VmDeploy.Service
