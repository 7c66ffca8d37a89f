import Mathlib.Logic.Basic

/-! The configuration record that every operation of the package is given. -/

set_option autoImplicit false

namespace VmDeploy

inductive HostRole where
  | jump
  | backend
  deriving DecidableEq, Repr

def HostRole.value : HostRole → String
  | .jump => "jump"
  | .backend => "backend"

structure SSHConfig where
  user : String
  keyPath : String
  connectTimeoutSeconds : Nat
  commandTimeoutSeconds : Nat
  deriving DecidableEq

structure VirtualBoxConfig where
  vboxmanage : String
  templateVm : String
  templateOva : String
  templateImageRef : String
  memoryMb : Nat
  cpus : Nat
  bootTimeoutSeconds : Nat
  deriving DecidableEq

structure HostConfig where
  vmName : String
  hostname : String
  role : HostRole
  httpPort : Nat
  deriving DecidableEq

structure InventoryConfig where
  servicePort : Nat
  remoteDir : String
  keyFile : String
  datastoreName : String
  manifestFile : String
  deriving DecidableEq

structure WebsiteConfig where
  sourceUrl : String
  archiveUrl : String
  documentRoot : String
  deriving DecidableEq

structure BuildConfig where
  goVersion : String
  goSha256 : String
  deriving DecidableEq

structure ClusterConfig where
  ssh : SSHConfig
  virtualbox : VirtualBoxConfig
  jump : HostConfig
  backends : List HostConfig
  inventory : InventoryConfig
  website : WebsiteConfig
  build : BuildConfig
  deriving DecidableEq

def ClusterConfig.allHosts (config : ClusterConfig) : List HostConfig :=
  config.jump :: config.backends

end VmDeploy
