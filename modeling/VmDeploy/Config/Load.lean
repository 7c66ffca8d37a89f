import VmDeploy.Config
import VmDeploy.Encoding.Toml
import VmDeploy.Exceptions
import VmDeploy.Python.Text

/-! `config.py`: from TOML documents to the configuration, or a `ConfigurationError`.

A path is kept as the text it is made of. -/

set_option autoImplicit false

namespace VmDeploy.Config

open Python
open Toml (Value Table)

/-- What a load takes from the process it runs in: the expansion of variables and of
a leading `~`, and the value of `VMDEPLOY_SSH_USER`, empty when it is not set. -/
structure Platform where
  expandvars : String → String
  expanduser : String → String
  sshUser : String

def trimmed (text : String) : String :=
  String.ofList (strip text.toList)

def requiredTable (data : Table) (name : String) : Except PyError Table :=
  match Dict.get? data name with
  | some (.table entries) => .ok entries
  | _ => .error (.configurationError s!"Missing or malformed [{name}] table in cluster configuration")

def requireStr (table : Table) (key context : String) : Except PyError String :=
  let refused := PyError.configurationError s!"[{context}] requires a non-empty string field '{key}'"
  match Dict.get? table key with
  | some (.string text) => if trimmed text = "" then .error refused else .ok (trimmed text)
  | _ => .error refused

/-- `_optional_str` with its default. -/
def optionalStr (table : Table) (key : String) : String :=
  match Dict.get? table key with
  | some (.string text) => trimmed text
  | _ => ""

/-- A boolean is no integer. -/
def requireInt (table : Table) (key context : String) (minimum : Nat) : Except PyError Nat :=
  match Dict.get? table key with
  | some (.integer value) =>
      if value < minimum then
        .error (.configurationError s!"[{context}] field '{key}' must be >= {minimum}, got {value}")
      else .ok value.toNat
  | _ => .error (.configurationError s!"[{context}] requires an integer field '{key}'")

def minPort : Nat := 1

def maxPort : Nat := 65535

def minMemoryMb : Nat := 512

def requirePort (table : Table) (key context : String) : Except PyError Nat := do
  let port ← requireInt table key context minPort
  if maxPort < port then
    .error (.configurationError s!"[{context}] field '{key}' must be <= {maxPort}, got {port}")
  else .ok port

def requirePath (platform : Platform) (table : Table) (key context : String) :
    Except PyError String := do
  let raw ← requireStr table key context
  let expanded := platform.expanduser (platform.expandvars raw)
  if '%' ∈ expanded.toList ∨ '$' ∈ expanded.toList then
    let shown := String.ofList (reprText expanded.toList)
    .error (.configurationError (s!"[{context}] field '{key}' still contains an unexpanded " ++
      s!"environment variable after expansion: {shown}. Check the variable is set."))
  else .ok expanded

def parseBackendEntries (index : Nat) : List Value → Except PyError (List HostConfig)
  | [] => .ok []
  | .table entry :: rest => do
      let context := s!"backend[{index}]"
      let vmName ← requireStr entry "vm_name" context
      let hostname ← requireStr entry "hostname" context
      let httpPort ← requirePort entry "http_port" context
      let backends ← parseBackendEntries (index + 1) rest
      .ok (⟨vmName, hostname, .backend, httpPort⟩ :: backends)
  | _ :: _ => .error (.configurationError s!"[[backend]] entry {index} is not a table")

def shownNames (names : List String) : String :=
  String.ofList (reprList (names.map String.toList))

def uniqueBackends (backends : List HostConfig) : Except PyError (List HostConfig) :=
  let names := backends.map HostConfig.vmName
  if names.Nodup then .ok backends
  else .error (.configurationError s!"Duplicate backend vm_name values: {shownNames names}")

def parseBackends : Option Value → Except PyError (List HostConfig)
  | some (.array entries) =>
      if entries.length < 2 then
        .error (.configurationError (s!"At least two [[backend]] tables are required to validate " ++
          s!"load balancing distribution, found {entries.length}"))
      else do
        let backends ← parseBackendEntries 0 entries
        uniqueBackends backends
  | _ => .error (.configurationError "Cluster configuration requires an array of [[backend]] tables")

mutual

def mergeValue (existing : Option Value) : Value → Value
  | .table entries =>
      match existing with
      | some (.table before) => .table (deepMerge before entries)
      | _ => .table entries
  | value => value

/-- `_deep_merge`, by the entries of the overlay. -/
def deepMerge (merged : Table) : Table → Table
  | [] => merged
  | (key, value) :: rest =>
      deepMerge (Dict.assign merged key (mergeValue (Dict.get? merged key) value)) rest

end

/-- A file as `_load_toml` finds it; the plain `ValueError` of an integer that is not converted is
not caught. -/
inductive Source where
  | unreadable (exc : String)
  | invalid (exc : String)
  | unconverted (exc : String)
  | parsed (document : Table)

def loadToml (path : String) : Source → Except PyError Table
  | .unreadable exc =>
      .error (.configurationError s!"Cannot read cluster configuration at {path}: {exc}")
  | .invalid exc => .error (.configurationError s!"Invalid TOML in {path}: {exc}")
  | .unconverted exc => .error (.valueError exc)
  | .parsed document => .ok document

/-- `f"{path.stem}.local{path.suffix}"` of the last component of a path. -/
def localName (name : List Char) : List Char :=
  let suffix := name.reverse.takeWhile (· ≠ '.')
  let stem := name.reverse.drop (suffix.length + 1)
  if stem = [] ∨ suffix = [] then name ++ ".local".toList
  else stem.reverse ++ ".local.".toList ++ suffix.reverse

def localOverlayPath (path : String) : String :=
  let name := path.toList.reverse.takeWhile (· ≠ '/')
  String.ofList ((path.toList.reverse.drop name.length).reverse ++ localName name.reverse)

/-- The environment names another user, where there is a table to put it. -/
def overrideUser (sshUser : String) (document : Table) : Table :=
  if trimmed sshUser = "" then document
  else
    match Dict.get? document "ssh" with
    | some (.table entries) =>
        Dict.assign document "ssh" (.table (Dict.assign entries "user" (.string (trimmed sshUser))))
    | _ => document

def sshConfig (platform : Platform) (table : Table) : Except PyError SSHConfig := do
  let user ← requireStr table "user" "ssh"
  let keyPath ← requirePath platform table "key_path" "ssh"
  let connect ← requireInt table "connect_timeout_seconds" "ssh" 1
  let command ← requireInt table "command_timeout_seconds" "ssh" 1
  .ok ⟨user, keyPath, connect, command⟩

def virtualBoxConfig (platform : Platform) (table : Table) : Except PyError VirtualBoxConfig := do
  let vboxmanage ← requirePath platform table "vboxmanage" "virtualbox"
  let templateVm ← requireStr table "template_vm" "virtualbox"
  let templateOva ← requirePath platform table "template_ova" "virtualbox"
  let memoryMb ← requireInt table "memory_mb" "virtualbox" minMemoryMb
  let cpus ← requireInt table "cpus" "virtualbox" 1
  let boot ← requireInt table "boot_timeout_seconds" "virtualbox" 30
  .ok ⟨vboxmanage, templateVm, templateOva, optionalStr table "template_image_ref", memoryMb, cpus,
    boot⟩

def jumpConfig (table : Table) : Except PyError HostConfig := do
  let vmName ← requireStr table "vm_name" "jump"
  let hostname ← requireStr table "hostname" "jump"
  let httpPort ← requirePort table "http_port" "jump"
  .ok ⟨vmName, hostname, .jump, httpPort⟩

def inventoryConfig (platform : Platform) (table : Table) : Except PyError InventoryConfig := do
  let servicePort ← requirePort table "service_port" "inventory"
  let remoteDir ← requireStr table "remote_dir" "inventory"
  let keyFile ← requirePath platform table "key_file" "inventory"
  let datastoreName ← requireStr table "datastore_name" "inventory"
  let manifestFile ← requirePath platform table "manifest_file" "inventory"
  .ok ⟨servicePort, remoteDir, keyFile, datastoreName, manifestFile⟩

def websiteConfig (table : Table) : Except PyError WebsiteConfig := do
  let sourceUrl ← requireStr table "source_url" "website"
  let archiveUrl ← requireStr table "archive_url" "website"
  let documentRoot ← requireStr table "document_root" "website"
  .ok ⟨sourceUrl, archiveUrl, documentRoot⟩

def buildConfig (table : Table) : Except PyError BuildConfig := do
  let goVersion ← requireStr table "go_version" "build"
  let goSha256 ← requireStr table "go_sha256" "build"
  .ok ⟨goVersion, goSha256⟩

def validateCrossReferences (config : ClusterConfig) : Except PyError Unit :=
  let vmNames := config.allHosts.map HostConfig.vmName
  let template := config.virtualbox.templateVm
  let port := config.inventory.servicePort
  if ¬ vmNames.Nodup then
    .error (.configurationError s!"Cluster vm_name values must be unique, got {shownNames vmNames}")
  else if template ∈ vmNames then
    .error (.configurationError (s!"template_vm '{template}' collides with a cluster VM name; " ++
      "the golden template must remain a separate machine"))
  else if port = config.jump.httpPort then
    .error (.configurationError
      s!"inventory.service_port ({port}) collides with jump.http_port ({config.jump.httpPort})")
  else .ok ()

/-- The rest of `load_cluster_config`, from the merged document. -/
def parseDocument (platform : Platform) (document : Table) : Except PyError ClusterConfig := do
  let sshTable ← requiredTable document "ssh"
  let vboxTable ← requiredTable document "virtualbox"
  let jumpTable ← requiredTable document "jump"
  let inventoryTable ← requiredTable document "inventory"
  let websiteTable ← requiredTable document "website"
  let buildTable ← requiredTable document "build"
  let ssh ← sshConfig platform sshTable
  let virtualbox ← virtualBoxConfig platform vboxTable
  let jump ← jumpConfig jumpTable
  let backends ← parseBackends (Dict.get? document "backend")
  let inventory ← inventoryConfig platform inventoryTable
  let website ← websiteConfig websiteTable
  let build ← buildConfig buildTable
  let config : ClusterConfig := ⟨ssh, virtualbox, jump, backends, inventory, website, build⟩
  validateCrossReferences config
  .ok config

def mergedDocument (path : String) (base : Source) : Option Source → Except PyError Table
  | none => loadToml path base
  | some overlay => do
      let document ← loadToml path base
      let values ← loadToml (localOverlayPath path) overlay
      .ok (deepMerge document values)

def loadClusterConfig (platform : Platform) (path : String) (base : Source)
    (overlay : Option Source) : Except PyError ClusterConfig := do
  let document ← mergedDocument path base overlay
  parseDocument platform (overrideUser platform.sshUser document)

end VmDeploy.Config
