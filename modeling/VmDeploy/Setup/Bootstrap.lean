import VmDeploy.Provision.Teardown
import VmDeploy.Remote.Host
import VmDeploy.Setup.Identity
import VmDeploy.VirtualBox.Address

/-! `setup.py`: the accounts on the template, and `run_setup` as a whole.

One session is open at a time; what is asked of a guest is asked in the session that was
opened last. -/

set_option autoImplicit false

open Effects Python Shell

namespace VmDeploy.Setup

open Remote
open VirtualBox (VBoxProg hostSignature)
open Inventory (Bytes FileProg fileSignature request orRaise)

section Accounts

variable (rt : Runtime) (host : RemoteHost) (username : String)

def sshDir : String :=
  s!"/home/{username}/.ssh"

def authorizedKeys : String :=
  s!"{sshDir username}/authorized_keys"

def sudoersFile : String :=
  s!"/etc/sudoers.d/90-{username}"

def lookUpUser : Line :=
  program ["id", "-u", username]

def addUser : Line :=
  program ["useradd", "--create-home", "--shell", "/bin/bash", username]

def joinSudo : Line :=
  program ["usermod", "-aG", "sudo", username]

def makeSshDir : Line :=
  program ["install", "-d", "-m", "700", "-o", username, "-g", username, sshDir username]

def ownKeys : Line :=
  program ["chown", s!"{username}:{username}", authorizedKeys username]

def restrictKeys : Line :=
  program ["chmod", "600", authorizedKeys username]

def checkSudoers : Line :=
  program ["visudo", "-cf", sudoersFile username]

def removeSudoers : Line :=
  program ["rm", "-f", sudoersFile username]

/-- Why `visudo` refuses the file. -/
def sudoersError (check : CommandResult) : PyError :=
  let stderr := String.ofList (strip check.stderr.toList)
  let stdout := String.ofList (strip check.stdout.toList)
  .vmDeployError (s!"Generated sudoers file for {username} failed validation: " ++
    (if stderr = "" then stdout else stderr))

def addMissingUser : RemoteProg Unit := do
  let known ← host.run (.plain (lookUpUser username)) false none
  if known.ok then
    pure ()
  else do
    let _ ← host.sudo (addUser username) true none
    pure ()

def createAdminUser (publicKey : String) : RemoteProg Unit := do
  addMissingUser host username
  let _ ← host.sudo (joinSudo username) true none
  let _ ← host.sudo (makeSshDir username) true none
  let key ← .ofExcept (asciiBytes rt (publicKey ++ "\n"))
  host.putBytes key (authorizedKeys username) 0o600
  let _ ← host.sudo (ownKeys username) true none
  let _ ← host.sudo (restrictKeys username) true none
  let rule ← .ofExcept (asciiBytes rt s!"{username} ALL=(ALL) NOPASSWD:ALL\n")
  host.putBytes rule (sudoersFile username) 0o440
  let check ← host.sudo (checkSudoers username) false none
  if check.ok then
    pure ()
  else do
    let _ ← host.sudo (removeSudoers username) false none
    .raise (sudoersError username check)

def lockPassword : Line :=
  program ["usermod", "-L", username]

def denyShell : Line :=
  program ["usermod", "-s", "/usr/sbin/nologin", username]

def leaveSudo : Line :=
  program ["gpasswd", "-d", username, "sudo"]

def removeKeys : Line :=
  program ["rm", "-f", authorizedKeys username]

/-- None of the five results is looked at. -/
def disableBootstrapAccount : RemoteProg Unit := do
  let _ ← host.sudo (lockPassword username) false none
  let _ ← host.sudo (denyShell username) false none
  let _ ← host.sudo (leaveSudo username) false none
  let _ ← host.sudo (removeSudoers username) false none
  let _ ← host.sudo (removeKeys username) false none
  pure ()

/-- The body of `verify_admin_access`. -/
def reachesRoot : RemoteProg Bool := do
  let result ← host.sudo (program ["id", "-u"]) false none
  pure (result.ok && strip result.stdout.toList == ['0'])

end Accounts

/-- Why paramiko does not connect. -/
inductive ConnectFault where
  | authentication (exc : String)
  | unreachable (exc : String)

inductive SessionOp where
  | connect (address : String) (ssh : SSHConfig)
  | close

abbrev SessionOp.Reply : SessionOp → Type
  | .connect _ _ => Except ConnectFault Unit
  | .close => Unit

abbrev sessionSignature : Signature :=
  ⟨SessionOp, SessionOp.Reply⟩

abbrev setupSignature : Signature :=
  (remoteSignature.sum sessionSignature).sum (fileSignature.sum hostSignature)

abbrev SetupProg (A : Type) :=
  Prog setupSignature PyError A

def onGuest {A : Type} (p : RemoteProg A) : SetupProg A :=
  (p.liftLeft : Prog (remoteSignature.sum sessionSignature) PyError A).liftLeft

def onSession (op : SessionOp) : SetupProg op.Reply :=
  ((Prog.perform (I := sessionSignature) op).liftRight :
    Prog (remoteSignature.sum sessionSignature) PyError op.Reply).liftLeft

def onFiles {A : Type} (p : FileProg A) : SetupProg A :=
  (p.liftLeft : Prog (fileSignature.sum hostSignature) PyError A).liftRight

def onHost {A : Type} (p : VBoxProg A) : SetupProg A :=
  (p.liftRight : Prog (fileSignature.sum hostSignature) PyError A).liftRight

/-- `RemoteHost.connect` -/
def connect (host : RemoteHost) : SetupProg Unit := do
  let keyPath := host.ssh.keyPath
  if ← onFiles (do orRaise (← request (.isFile keyPath))) then
    match ← onSession (.connect host.address host.ssh) with
    | .ok () => pure ()
    | .error (.authentication exc) =>
        .raise (.sshConnectionError (s!"Authentication failed for {host.ssh.user}@{host.address} " ++
          s!"using key {keyPath}: {exc}"))
    | .error (.unreachable exc) =>
        .raise (.sshConnectionError s!"Cannot reach {host.address} over SSH: {exc}")
  else
    .raise (.sshConnectionError s!"SSH private key not found at {keyPath}")

/-- `with RemoteHost(address, ssh) as host` -/
def withHost {A : Type} (host : RemoteHost) (body : RemoteProg A) : SetupProg A := do
  connect host
  (onGuest body).ensuring (onSession .close)

/-- What `except SSHConnectionError` takes, with its text. -/
def sshText : PyError → Option String
  | .sshConnectionError message => some message
  | _ => none

def retryIntervalMs : Nat := 5000

def acceptsSsh (host : RemoteHost) : SetupProg Unit :=
  withHost host do
    let _ ← host.run (.plain ⟨trueCommand, []⟩) true none
    pure ()

/-- The loop of `wait_for_ssh`. -/
def pollSsh (host : RemoteHost) (timeoutSeconds deadline : Nat) :
    Nat → (attempt : Nat) → (lastError : String) → SetupProg Unit
  | 0, _, _ => .halt
  | polls + 1, attempt, lastError => do
      let now ← onHost (VirtualBox.ask .monotonic)
      if now < deadline then do
        let failure ← ((acceptsSsh host).bind fun _ => pure none).catching fun error =>
          (sshText error).map fun message => pure (some message)
        match failure with
        | none => pure ()
        | some message => do
            onHost (VirtualBox.ask (.sleep retryIntervalMs))
            pollSsh host timeoutSeconds deadline polls (attempt + 1) message
      else
        .raise (.provisioningTimeoutError
          (s!"{host.address} did not accept SSH within {timeoutSeconds}s after {attempt} " ++
            s!"attempt(s); last error: {lastError}"))

def waitForSsh (polls : Nat) (host : RemoteHost) (timeoutSeconds : Nat) : SetupProg Unit := do
  let started ← onHost (VirtualBox.ask .monotonic)
  pollSsh host timeoutSeconds (started + 1000 * timeoutSeconds) polls 0 "no attempt completed"

def verifyAdminAccess (host : RemoteHost) : SetupProg Bool :=
  (withHost host (reachesRoot host)).catching fun error =>
    if isVmDeployError error then some (pure false) else none

section RunSetup

variable (rt : Runtime) (py : Inventory.Interpreter) (polls : Nat) (config : ClusterConfig)
  (basePath newUser newKeyPath : String)

def newSsh : SSHConfig :=
  { config.ssh with user := newUser, keyPath := newKeyPath }

/-- Up to a template that accepts the bootstrap account: its address. -/
def reachTemplate : SetupProg String := do
  onHost (Provision.bindVBoxManage config.virtualbox.vboxmanage)
  let template := config.virtualbox.templateVm
  let boot := config.virtualbox.bootTimeoutSeconds
  if ← onHost (VirtualBox.isRegistered template) then
    pure ()
  else
    .raise (.vmDeployError s!"Template machine '{template}' is not registered")
  onHost (VirtualBox.startHeadless template)
  let address ← onHost (VirtualBox.waitForGuestIp polls template template boot)
  waitForSsh polls ⟨address, config.ssh⟩ boot
  pure address

def unverified : PyError :=
  .vmDeployError (s!"New user '{newUser}' could not log in with sudo; leaving the bootstrap " ++
    s!"account '{config.ssh.user}' enabled. No changes to access were made.")

/-- From the verified user on: disable the stock account and name the new identity. -/
def handOver (address : String) : SetupProg Unit := do
  let admin : RemoteHost := ⟨address, newSsh config newUser newKeyPath⟩
  withHost admin (disableBootstrapAccount admin config.ssh.user)
  let _ ← onFiles (writeLocalOverlay rt basePath newUser newKeyPath)
  pure ()

/-- Up to the verified user: the address of the template. -/
def verifiedTemplate : SetupProg String := do
  if newUser = config.ssh.user then
    .raise (.vmDeployError
      s!"new_user '{newUser}' must differ from the bootstrap user '{config.ssh.user}'")
  let publicKey ← onFiles (generateSshKeypair rt newKeyPath s!"{newUser}@vmdeploy")
  let _ ← onFiles (Inventory.loadOrCreateKey py config.inventory.keyFile)
  let address ← reachTemplate polls config
  let bootstrap : RemoteHost := ⟨address, config.ssh⟩
  withHost bootstrap (createAdminUser rt bootstrap newUser publicKey)
  if ← verifyAdminAccess ⟨address, newSsh config newUser newKeyPath⟩ then
    pure address
  else
    .raise (unverified config newUser)

def runSetup : SetupProg Unit := do
  let address ← verifiedTemplate rt py polls config newUser newKeyPath
  handOver rt config basePath newUser newKeyPath address

end RunSetup

end VmDeploy.Setup
