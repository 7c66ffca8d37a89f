import VmDeploy.Config.Valid

/-! What every accepted configuration satisfies, for the modules that are given one. -/

set_option autoImplicit false

namespace VmDeploy

def ClusterConfig.vmNames (config : ClusterConfig) : List String :=
  config.allHosts.map HostConfig.vmName

namespace Config

open Toml (Value Table)

structure Sound (config : ClusterConfig) : Prop where
  named : ∀ host ∈ config.allHosts, host.vmName ≠ ""
  reachable : ∀ host ∈ config.allHosts, host.hostname ≠ ""
  distinct : config.vmNames.Nodup
  template : config.virtualbox.templateVm ∉ config.vmNames
  jump : config.jump.role = .jump
  backends : ∀ host ∈ config.backends, host.role = .backend

theorem textAt_ne {table : Table} {key : String} (holds : HasText table key) :
    textAt table key ≠ "" := by
  obtain ⟨text, found, visible⟩ := holds
  rw [textAt, optionalStr, found]
  exact visible

theorem described_sound {platform : Platform} {document : Table}
    (acceptable : Acceptable platform document) : Sound (described platform document) := by
  have entries : ∀ host ∈ (described platform document).backends,
      host.vmName ≠ "" ∧ host.hostname ≠ "" ∧ host.role = .backend := by
    intro host member
    obtain ⟨entry, present, rfl⟩ := List.mem_map.mp member
    obtain ⟨elements, found, -, all⟩ := acceptable.backends
    have listed : entry ∈ elements := by
      rw [backendsAt, found] at present
      exact present
    have usable := all entry listed
    cases entry with
    | table fields => exact ⟨textAt_ne usable.1, textAt_ne usable.2.1, rfl⟩
    | _ => exact usable.elim
  have names : (described platform document).vmNames = machineNames document := by
    rw [machineNames, backendNames]
    simp [ClusterConfig.vmNames, ClusterConfig.allHosts, described, jumpAt]
  constructor
  · intro host member
    rcases List.mem_cons.mp member with rfl | member
    · exact textAt_ne (acceptable.texts ("jump", "vm_name") (by decide))
    · exact (entries host member).1
  · intro host member
    rcases List.mem_cons.mp member with rfl | member
    · exact textAt_ne (acceptable.texts ("jump", "hostname") (by decide))
    · exact (entries host member).2.1
  · rw [names]
    exact acceptable.distinct
  · rw [names]
    exact acceptable.template
  · rfl
  · exact fun host member => (entries host member).2.2

theorem sound_of_load {platform : Platform} {path : String} {base : Source}
    {overlay : Option Source} {config : ClusterConfig}
    (loaded : loadClusterConfig platform path base overlay = .ok config) : Sound config := by
  obtain ⟨document, -, parsed⟩ := of_bind_ok loaded
  obtain ⟨acceptable, rfl⟩ := (parseDocument_reads platform _).ok_iff.mp parsed
  exact described_sound acceptable

def examplePlatform : Platform := ⟨id, id, ""⟩

def exampleBackend (vmName hostname : String) : Value :=
  .table [("vm_name", .string vmName), ("hostname", .string hostname), ("http_port", .integer 8080)]

/-- The values of `config/cluster.toml` with other hostnames and backends. -/
def exampleDocument (jumpHostname : String) (backends : List Value) : Table :=
  [("ssh", .table
      [("user", .string "vmadmin"), ("key_path", .string "keys/vm_key"),
        ("connect_timeout_seconds", .integer 30), ("command_timeout_seconds", .integer 300)]),
    ("virtualbox", .table
      [("vboxmanage", .string "VBoxManage.exe"), ("template_vm", .string "apubuntuD"),
        ("template_ova", .string "templates/apcluster-golden.ova"),
        ("memory_mb", .integer 1024), ("cpus", .integer 1),
        ("boot_timeout_seconds", .integer 420)]),
    ("jump", .table
      [("vm_name", .string "apjump"), ("hostname", .string jumpHostname),
        ("http_port", .integer 80)]),
    ("backend", .array backends),
    ("inventory", .table
      [("service_port", .integer 5090), ("remote_dir", .string "/opt/inventory"),
        ("key_file", .string "keys/inventory.key"), ("datastore_name", .string "inventory.enc"),
        ("manifest_file", .string "inventory.enc")]),
    ("website", .table
      [("source_url", .string "https://your-org.github.io/"),
        ("archive_url", .string "https://github.com/your-org/your-site/archive/refs/heads/main.tar.gz"),
        ("document_root", .string "/var/www/html")]),
    ("build", .table
      [("go_version", .string "1.26.5"),
        ("go_sha256",
          .string "5c2c3b16caefa1d968a94c1daca04a7ca301a496d9b086e17ad77bb81393f053")])]

def exampleCluster (jumpHostname : String) (backends : List HostConfig) : ClusterConfig where
  ssh := ⟨"vmadmin", "keys/vm_key", 30, 300⟩
  virtualbox := ⟨"VBoxManage.exe", "apubuntuD", "templates/apcluster-golden.ova", "", 1024, 1, 420⟩
  jump := ⟨"apjump", jumpHostname, .jump, 80⟩
  backends := backends
  inventory := ⟨5090, "/opt/inventory", "keys/inventory.key", "inventory.enc", "inventory.enc"⟩
  website := ⟨"https://your-org.github.io/",
    "https://github.com/your-org/your-site/archive/refs/heads/main.tar.gz", "/var/www/html"⟩
  build := ⟨"1.26.5", "5c2c3b16caefa1d968a94c1daca04a7ca301a496d9b086e17ad77bb81393f053"⟩

def exampleNodes : List HostConfig :=
  [⟨"apnode1", "apnode1", .backend, 8080⟩, ⟨"apnode2", "apnode2", .backend, 8080⟩]

theorem example_loads : loadClusterConfig examplePlatform "config/cluster.toml"
    (.parsed (exampleDocument "apjump"
      [exampleBackend "apnode1" "apnode1", exampleBackend "apnode2" "apnode2"])) none =
      .ok (exampleCluster "apjump" exampleNodes) := by
  decide +kernel

end Config

end VmDeploy
