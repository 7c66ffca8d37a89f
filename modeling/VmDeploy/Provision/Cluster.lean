import VmDeploy.Config
import VmDeploy.Python.Paths
import VmDeploy.Seed.Render
import VmDeploy.VirtualBox.Address

/-! `provision.py`: one guest, every guest of a cluster, and their removal.

What is done in a booted guest is arbitrary: any programs over any guest operations. -/

set_option autoImplicit false

open Effects Python

namespace VmDeploy

open VirtualBox

def raising {A : Type} : Except PyError A → VBoxProg A
  | .ok value => .done value
  | .error failure => .raise failure

namespace Seed

/-- The documents, with an instance id made of the hostname and a fresh token. -/
def documents (hostname username publicKey token : Text) : Except PyError (Text × Text) := do
  let user ← renderUserData hostname username publicKey
  let found ← renderMetaData hostname (hostname ++ '-' :: token.take 12)
  .ok (user, found)

def isoFailure (destination message : String) : PyError :=
  .vmDeployError s!"could not write the seed ISO to {destination}: {message}"

/-- `build_seed_iso` without an explicit instance id. -/
def buildSeedIso (destination : String) (hostname username publicKey : Text) : VBoxProg Unit := do
  let token ← ask .uuidHex
  let (user, found) ← raising (documents hostname username publicKey token)
  orOsError (← ask (.mkdirParents (String.ofList (pathParent destination.toList))))
  orOsError (← ask (.unlinkMissingOk destination))
  match ← ask (.writeIso destination user found) with
  | .ok _ => pure ()
  | .error message => .raise (isoFailure destination message)

end Seed

namespace Provision

variable {G : Signature}

def seedPath (config : ClusterConfig) (vm : String) : String :=
  let directory := joinPath (pathParent config.virtualbox.templateOva.toList) "seeds".toList
  String.ofList (joinPath directory s!"{vm}-seed.iso".toList)

/-- `private_path.with_suffix(private_path.suffix + ".pub")` -/
def publicKeyPath (keyPath : String) : Except PyError String :=
  let path := pathText keyPath.toList
  if pathParts keyPath.toList = [] then
    .error (.valueError s!"PosixPath({String.ofList (reprText path)}) has an empty name")
  else
    .ok (String.ofList (path ++ ".pub".toList))

def hexByte (byte : UInt8) : String :=
  String.ofList [Nat.digitChar (byte.toNat / 16), Nat.digitChar (byte.toNat % 16)]

def unreadableKey (path message : String) : PyError :=
  .vmDeployError (s!"Cannot read the deployer public key at {path}: {message}. Guests take their " ++
    "only login from this key; run 'vmdeploy setup' to generate one.")

def publicKeyOf (path : String) : Except String (List UInt8) → Except PyError Text
  | .error message => .error (unreadableKey path message)
  | .ok bytes =>
      match asciiText bytes with
      | .error (byte, place) =>
          .error (.valueError (s!"'ascii' codec can't decode byte 0x{hexByte byte} in position " ++
            s!"{place}: ordinal not in range(128)"))
      | .ok text => .ok (strip (universalNewlines text))

def deployerPublicKey (config : ClusterConfig) : VBoxProg Text := do
  let path ← raising (publicKeyPath config.ssh.keyPath)
  raising (publicKeyOf path (← ask (.readBytes path)))

/-- What a provisioned guest is asked over its SSH session. -/
structure GuestSteps (G : Signature) where
  waitForSsh : (address : String) → SSHConfig → (timeoutSeconds : Nat) → Prog G PyError Unit
  connect : (address : String) → SSHConfig → Prog G PyError Unit
  waitForCloudInit : (address : String) → (timeoutSeconds : Nat) → Prog G PyError Unit
  hostname : (address : String) → Prog G PyError String
  close : (address : String) → Prog G PyError Unit

/-- From the old machine's removal to the new one's hardware. A template without a bridged
adapter leaves the imported network as it is. -/
def importGuest (polls : Nat) (config : ClusterConfig) (host : HostConfig) : VBoxProg Unit := do
  let bridge ← bridgeInterfaceOf config.virtualbox.templateVm
  destroy polls host.vmName destroyAttempts
  importAppliance config.virtualbox.templateOva host.vmName
  configure host.vmName config.virtualbox.memoryMb config.virtualbox.cpus
  if bridge ≠ "" then
    setBridgeAdapter host.vmName bridge
  else
    pure ()

def seedGuest (config : ClusterConfig) (host : HostConfig) : VBoxProg Unit := do
  let key ← deployerPublicKey config
  Seed.buildSeedIso (seedPath config host.vmName) host.hostname.toList config.ssh.user.toList key
  attachOptical host.vmName (seedPath config host.vmName)

def bootGuest (polls : Nat) (config : ClusterConfig) (host : HostConfig) : VBoxProg String := do
  startHeadless host.vmName
  waitForGuestIp polls host.vmName host.hostname config.virtualbox.bootTimeoutSeconds

def wrongHostname (host : HostConfig) (actual : String) : PyError :=
  .vmDeployError (s!"{host.vmName} reports hostname '{actual}' after provisioning, " ++
    s!"expected '{host.hostname}'. The cloud-init seed was not applied.")

/-- The `with RemoteHost` block, and the wait before it. -/
def confirmGuest (steps : GuestSteps G) (config : ClusterConfig) (host : HostConfig)
    (address : String) : Prog G PyError Unit := do
  let boot := config.virtualbox.bootTimeoutSeconds
  steps.waitForSsh address config.ssh boot
  steps.connect address config.ssh
  Prog.ensuring (do
    steps.waitForCloudInit address boot
    let actual ← steps.hostname address
    if actual ≠ host.hostname then
      .raise (wrongHostname host actual)
    else
      pure ())
    (steps.close address)

def provisionHost (polls : Nat) (steps : GuestSteps G) (config : ClusterConfig)
    (host : HostConfig) : Prog (hostSignature.sum G) PyError String := do
  (importGuest polls config host).liftLeft
  (seedGuest config host).liftLeft
  let address ← (bootGuest polls config host).liftLeft
  (confirmGuest steps config host address).liftRight
  pure address

section Cluster

variable {m : Type → Type} [Monad m]

/-- The address of each host provisioned so far is kept under its hostname. -/
def provisionHosts (provision : HostConfig → m String) :
    Dict String String → List HostConfig → m (Dict String String)
  | addresses, [] => pure addresses
  | addresses, host :: rest => do
      let address ← provision host
      provisionHosts provision (addresses.assign host.hostname address) rest

/-- `provision_cluster`, over any way of provisioning a host. -/
def provisionCluster (provision : HostConfig → m String) (config : ClusterConfig) :
    m (Dict String String) :=
  provisionHosts provision [] config.allHosts

def destroyHosts (destroyHost : String → m Unit) : List HostConfig → m Unit
  | [] => pure ()
  | host :: rest => do
      destroyHost host.vmName
      destroyHosts destroyHost rest

/-- `teardown_cluster`, over any way of destroying a machine. -/
def teardownCluster (destroyHost : String → m Unit) (config : ClusterConfig) : m Unit :=
  destroyHosts destroyHost config.allHosts

end Cluster

end Provision

end VmDeploy
