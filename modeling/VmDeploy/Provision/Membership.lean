import VmDeploy.Apache
import VmDeploy.Config.Accepted
import VmDeploy.Inventory.Upsert
import VmDeploy.Provision.Cluster

/-! The registry and the balancer pool of a provisioned cluster. -/

set_option autoImplicit false

open Python

namespace VmDeploy.Provision

/-- What `provision_cluster` returns when every host comes up at an address. -/
def addressMap (address : HostConfig → String) (config : ClusterConfig) : Dict String String :=
  provisionCluster (m := Id) address config

def Registers (timestamp : String) (config : ClusterConfig) (address : HostConfig → String)
    (addresses ipv6Addresses : Dict String String) : Prop :=
  Inventory.buildRecords timestamp config addresses ipv6Addresses =
    config.allHosts.map fun host =>
      { hostname := host.hostname
        role := host.role.value
        ipv4 := address host
        ipv6 := (ipv6Addresses.get? host.hostname).getD ""
        status := "Deployed"
        statusTimestamp := timestamp
        state := "Active"
        stateTimestamp := timestamp }

def Balances (config : ClusterConfig) (address : HostConfig → String)
    (addresses : Dict String String) : Prop :=
  Apache.renderBalancerVhost config addresses =
    .ok (Apache.balancerVhost config
      (config.backends.map fun backend => Apache.balancerMember backend (address backend)))

variable {address : HostConfig → String} {config : ClusterConfig}

theorem get?_provisionHosts (address : HostConfig → String) (addresses : Dict String String) {hosts : List HostConfig}
    (hostname : String) (absent : hostname ∉ hosts.map HostConfig.hostname) :
    (provisionHosts (m := Id) address addresses hosts).get? hostname =
      addresses.get? hostname := by
  induction hosts generalizing addresses with
  | nil => rfl
  | cons host rest ih =>
    rw [List.map_cons, List.mem_cons, not_or] at absent
    rw [provisionHosts]
    have here := ih (addresses.assign host.hostname (address host)) absent.2
    rw [Dict.get?_assign, if_neg (Ne.symm absent.1)] at here
    exact here

theorem get?_addressMap {hosts : List HostConfig} (addresses : Dict String String)
    (distinct : (hosts.map HostConfig.hostname).Nodup) {host : HostConfig} (member : host ∈ hosts) :
    (provisionHosts (m := Id) address addresses hosts).get? host.hostname =
      some (address host) := by
  induction hosts generalizing addresses with
  | nil => cases member
  | cons first rest ih =>
    obtain ⟨fresh, later⟩ := List.nodup_cons.mp distinct
    rcases List.mem_cons.mp member with rfl | member
    · have last := get?_provisionHosts address (addresses.assign host.hostname (address host)) _ fresh
      rw [Dict.get?_assign, if_pos rfl] at last
      exact last
    · exact ih (addresses.assign first.hostname (address first)) later member

theorem provisionHosts_congr {first second : HostConfig → String} {hosts : List HostConfig}
    (same : ∀ host ∈ hosts, first host = second host) (addresses : Dict String String) :
    provisionHosts (m := Id) first addresses hosts =
      provisionHosts (m := Id) second addresses hosts := by
  induction hosts generalizing addresses with
  | nil => rfl
  | cons host rest ih =>
    obtain ⟨here, later⟩ := List.forall_mem_cons.mp same
    rw [provisionHosts, provisionHosts, here]
    exact ih later _

open Effects in
-- Whatever a run of `provision_cluster` returns is the address map of some assignment.
theorem always_addressMap {I : Signature} {W X : Type} (step : Step I W X)
    (provision : HostConfig → Prog I PyError String) (addresses : Dict String String)
    {hosts : List HostConfig} (distinct : hosts.Nodup) (world : W) :
    Always step (provisionHosts provision addresses hosts) world
      (fun outcome _ => ∀ found, outcome = .returned found →
        ∃ address, found = provisionHosts (m := Id) address addresses hosts) := by
  induction hosts generalizing addresses world with
  | nil =>
    apply always_done
    intro found same
    cases same
    exact ⟨fun _ => "", rfl⟩
  | cons host rest ih =>
    obtain ⟨fresh, later⟩ := List.nodup_cons.mp distinct
    apply always_bind
    intro script
    cases ended : ((provision host).eval step world script).1 with
    | raised failure => exact fun found same => by cases same
    | stopped => exact fun found same => by cases same
    | returned here =>
      refine (ih (addresses.assign host.hostname here) later _).mono ?_
      intro outcome _ returns found same
      obtain ⟨others, rfl⟩ := returns found same
      refine ⟨Function.update others host here, ?_⟩
      have apart : ∀ other ∈ rest, others other = Function.update others host here other := by
        intro other member
        rw [Function.update_of_ne]
        rintro rfl
        exact fresh member
      rw [provisionHosts_congr apart, provisionHosts, Function.update_self]
      rfl

/-- Over the addresses of a provisioning, the registry and the pool hold every host once with
its own address exactly when no two hosts share a hostname. -/
theorem membership_iff (assigned : ∀ host ∈ config.allHosts, address host ≠ "") (timestamp : String)
    (ipv6Addresses : Dict String String) :
    (Registers timestamp config address (addressMap address config) ipv6Addresses ∧
      Balances config address (addressMap address config)) ↔
      (config.allHosts.map HostConfig.hostname).Nodup := by
  constructor
  · rintro ⟨registers, -⟩
    have distinct : ((Inventory.buildRecords timestamp config (addressMap address config)
        ipv6Addresses).map Inventory.Record.hostname).Nodup :=
      Inventory.nodup_foldl_upsert _ config.allHosts List.nodup_nil
    rw [registers, List.map_map] at distinct
    exact distinct
  · intro distinct
    have found : ∀ host ∈ config.allHosts,
        (addressMap address config).get? host.hostname = some (address host) :=
      fun host member => get?_addressMap [] distinct member
    constructor
    · have built : Inventory.buildRecords timestamp config (addressMap address config)
          ipv6Addresses = _ :=
        Inventory.foldl_upsert_fresh _ (by simpa [List.map_map, Function.comp_def,
          Inventory.deployedRecord] using distinct)
      rw [Registers, built, List.nil_append]
      apply List.map_congr_left
      intro host member
      simp [Inventory.deployedRecord, found host member, assigned host member]
    · have backends : ∀ backend ∈ config.backends, backend ∈ config.allHosts :=
        fun backend member => List.mem_cons_of_mem _ member
      rw [Balances, Apache.renderBalancerVhost,
        Apache.memberLines_ok (fun backend member => found backend (backends backend member))
          (fun backend member => assigned backend (backends backend member))]
      rfl

def exampleAddress (host : HostConfig) : String :=
  if host.vmName = "apnode1" then "192.168.1.11"
  else if host.vmName = "apnode2" then "192.168.1.12"
  else "192.168.1.10"

def exampleCluster : ClusterConfig :=
  Config.exampleCluster "apjump" Config.exampleNodes

theorem example_membership :
    Registers "2026-01-01T00:00:00Z" exampleCluster exampleAddress
        (addressMap exampleAddress exampleCluster) [] ∧
      Balances exampleCluster exampleAddress (addressMap exampleAddress exampleCluster) :=
  (membership_iff (by decide) "2026-01-01T00:00:00Z" []).mpr (by decide)

def twinNodes : List HostConfig :=
  [⟨"apnode1", "apnode", .backend, 8080⟩, ⟨"apnode2", "apnode", .backend, 8080⟩]

/-- One record for two machines, and one address for two members. -/
theorem twins_share_record :
    Config.loadClusterConfig Config.examplePlatform "config/cluster.toml"
      (.parsed (Config.exampleDocument "apjump"
        [Config.exampleBackend "apnode1" "apnode", Config.exampleBackend "apnode2" "apnode"]))
      none = .ok (Config.exampleCluster "apjump" twinNodes) ∧
    (∀ host ∈ (Config.exampleCluster "apjump" twinNodes).allHosts, exampleAddress host ≠ "") ∧
    ¬ Registers "2026-01-01T00:00:00Z" (Config.exampleCluster "apjump" twinNodes) exampleAddress
      (addressMap exampleAddress (Config.exampleCluster "apjump" twinNodes)) [] ∧
    Apache.memberLines (addressMap exampleAddress (Config.exampleCluster "apjump" twinNodes))
        twinNodes =
      .ok ["        BalancerMember \"http://192.168.1.12:8080\" route=apnode",
        "        BalancerMember \"http://192.168.1.12:8080\" route=apnode"] := by
  refine ⟨by decide +kernel, by decide, ?_, rfl⟩
  unfold Registers
  decide

end VmDeploy.Provision
