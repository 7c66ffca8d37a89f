import VmDeploy.Config.Accepted
import VmDeploy.Inventory.Removal
import VmDeploy.Inventory.Requests

/-! Every writer of a registry file, in any order, and what holds of each registry reached. -/

set_option autoImplicit false

namespace VmDeploy.Inventory

open Python

/-- What a registry of this system always satisfies. -/
structure WellFormed (records : List (Record String)) : Prop where
  distinct : (records.map Record.hostname).Nodup
  named : ∀ record ∈ records, record.hostname ≠ ""
  roles : ∀ record ∈ records, record.role = "jump" ∨ record.role = "backend"
  stamped : ∀ record ∈ records, record.statusTimestamp ≠ "" ∧ record.stateTimestamp ≠ ""

/-- One operation, with what it takes from clocks and from the random generator: a seed, a
registration, and the removal marks of the service's tool and of the client. -/
inductive Writer where
  | seed (config : ClusterConfig) (addresses ipv6Addresses : Dict String String)
      (timestamp : String) (nonce : Bytes)
  | post (body : Bytes) (statusNow stateNow : String) (nonce : Bytes)
  | serviceMark (timestamp : String) (nonce : Bytes)
  | clientMark (config : ClusterConfig) (timestamp : String) (nonce : Bytes)

/-- Configurations are accepted ones, clocks print something, nonces have their length. -/
def Writer.Proper : Writer → Prop
  | .seed config _ _ timestamp nonce | .clientMark config timestamp nonce =>
      (∃ platform path base overlay,
        Config.loadClusterConfig platform path base overlay = .ok config) ∧
        timestamp ≠ "" ∧ nonce.length = nonceBytes
  | .post _ statusNow stateNow nonce => statusNow ≠ "" ∧ stateNow ≠ "" ∧ nonce.length = nonceBytes
  | .serviceMark timestamp nonce => timestamp ≠ "" ∧ nonce.length = nonceBytes

section Files

variable (py : Interpreter) (texts : GoTexts) (aead : Aead) (key : Bytes)

/-- `read_local_manifest` of the file. -/
def readManifest : Option Bytes → Except PyError (List (Record Json.Content))
  | none => .ok []
  | some blob => decryptRecords py aead blob key

def seedFile (config : ClusterConfig) (addresses ipv6Addresses : Dict String String)
    (timestamp : String) (nonce : Bytes) : Except PyError Bytes :=
  encryptRecords aead (buildRecords timestamp config addresses ipv6Addresses) key nonce

def manifestMarkRemoved (timestamp : String) (nonce : Bytes) (file : Option Bytes) :
    Except ServiceError Bytes := do
  let records ← loadRecords texts aead key file
  sealRecords aead (records.map (markRemoved id timestamp)) key nonce

def markManifestRemoved (config : ClusterConfig) (timestamp : String) (nonce : Bytes)
    (file : Option Bytes) : Except PyError Bytes := do
  let records ← readManifest py aead key file
  encryptRead aead (removedRecords pyText timestamp config records) key nonce

/-- The file after an operation, which leaves it as it was when it fails. -/
def Writer.apply (file : Option Bytes) : Writer → Option Bytes
  | .seed config addresses ipv6Addresses timestamp nonce =>
      (seedFile aead key config addresses ipv6Addresses timestamp nonce).toOption.or file
  | .post body statusNow stateNow nonce =>
      (postInventory texts aead key body statusNow stateNow nonce file).2
  | .serviceMark timestamp nonce =>
      (manifestMarkRemoved texts aead key timestamp nonce file).toOption.or file
  | .clientMark config timestamp nonce =>
      (markManifestRemoved py aead key config timestamp nonce file).toOption.or file

def Holds (file : Option Bytes) (records : List (Record String)) : Prop :=
  loadRecords texts aead key file = .ok records ∧
    readManifest py aead key file = .ok (records.map (Record.map pyText))

end Files

theorem role_value (role : HostRole) : role.value = "jump" ∨ role.value = "backend" := by
  cases role
  · exact .inl rfl
  · exact .inr rfl

theorem wellFormed_upsert {candidate : Record String} {records : List (Record String)}
    (before : WellFormed records) (named : candidate.hostname ≠ "")
    (role : candidate.role = "jump" ∨ candidate.role = "backend")
    (stamps : candidate.statusTimestamp ≠ "" ∧ candidate.stateTimestamp ≠ "") :
    WellFormed (upsertInto candidate records) where
  distinct := nodup_upsertInto before.distinct
  named := forall_upsertInto named before.named
  roles := forall_upsertInto role before.roles
  stamped := forall_upsertInto stamps before.stamped

theorem wellFormed_nil : WellFormed [] := by
  constructor <;> simp

theorem wellFormed_build {config : ClusterConfig} (sound : Config.Sound config)
    {timestamp : String} (stamp : timestamp ≠ "") (addresses ipv6Addresses : Dict String String) :
    WellFormed (buildRecords timestamp config addresses ipv6Addresses) := by
  have each : ∀ hosts : List HostConfig, (∀ host ∈ hosts, host.hostname ≠ "") →
      ∀ records, WellFormed records →
        WellFormed (hosts.foldl (fun records host => upsert records (deployedRecord timestamp host
          ((addresses.get? host.hostname).getD "") ((ipv6Addresses.get? host.hostname).getD "")))
          records) := by
    intro hosts named
    induction hosts with
    | nil => exact fun _ before => before
    | cons host rest ih =>
      obtain ⟨here, later⟩ := List.forall_mem_cons.mp named
      intro records before
      exact ih later _ (wellFormed_upsert before here (role_value host.role) ⟨stamp, stamp⟩)
  exact each config.allHosts sound.reachable [] wellFormed_nil

theorem wellFormed_marked {records : List (Record String)} (before : WellFormed records)
    {timestamp : String} (stamp : timestamp ≠ "") :
    WellFormed (records.map (markRemoved id timestamp)) := by
  constructor
  · rw [List.map_map]
    exact before.distinct
  · intro record member
    obtain ⟨old, listed, rfl⟩ := List.mem_map.mp member
    exact before.named old listed
  · intro record member
    obtain ⟨old, listed, rfl⟩ := List.mem_map.mp member
    exact before.roles old listed
  · intro record member
    obtain ⟨old, listed, rfl⟩ := List.mem_map.mp member
    exact ⟨stamp, stamp⟩

theorem wellFormed_removed {config : ClusterConfig} (sound : Config.Sound config)
    {records : List (Record String)} (before : WellFormed records) {timestamp : String}
    (stamp : timestamp ≠ "") : WellFormed (removedRecords id timestamp config records) := by
  constructor
  · exact nodup_removedRecords id timestamp config records
  · exact forall_removeUnseen (forall_removeListed before.named) sound.reachable
  · exact forall_removeUnseen (forall_removeListed before.roles)
      (fun host _ => role_value host.role)
  · exact forall_removeUnseen (forall_removeListed fun _ _ => ⟨stamp, stamp⟩)
      (fun _ _ => ⟨stamp, stamp⟩)

section Reached

variable {py : Interpreter} {texts : GoTexts} {aead : Aead} {key : Bytes}

theorem holds_client (opens : aead.Opens) (tagged : aead.Tagged) (strong : key.length = keyBytes)
    {nonce : Bytes} (fresh : nonce.length = nonceBytes) (records : List (Record String)) :
    ∃ blob, encryptRecords aead records key nonce = .ok blob ∧
      Holds py texts aead key (some blob) records :=
  ⟨_, if_neg (not_not.mpr strong), payload_reads opens tagged py texts strong fresh
    asciiEscape_escapes mem_sortedFields records⟩

theorem holds_service (opens : aead.Opens) (tagged : aead.Tagged) (strong : key.length = keyBytes)
    {nonce : Bytes} (fresh : nonce.length = nonceBytes) (records : List (Record String)) :
    ∃ blob, sealRecords aead records key nonce = .ok blob ∧
      Holds py texts aead key (some blob) records :=
  ⟨_, if_neg (not_not.mpr strong), payload_reads opens tagged py texts strong fresh
    htmlEscape_escapes mem_fields records⟩

theorem writer_keeps (opens : aead.Opens) (tagged : aead.Tagged) (strong : key.length = keyBytes)
    {writer : Writer} (proper : writer.Proper) {file : Option Bytes}
    {records : List (Record String)} (holds : Holds py texts aead key file records)
    (before : WellFormed records) :
    ∃ after, Holds py texts aead key (writer.apply py texts aead key file) after ∧
      WellFormed after := by
  cases writer with
  | seed config addresses ipv6Addresses timestamp nonce =>
    obtain ⟨⟨_, _, _, _, loaded⟩, stamp, fresh⟩ := proper
    obtain ⟨blob, written, reads⟩ := holds_client opens tagged strong fresh
      (buildRecords timestamp config addresses ipv6Addresses)
    refine ⟨_, ?_, wellFormed_build (Config.sound_of_load loaded) stamp addresses ipv6Addresses⟩
    rw [Writer.apply, seedFile, written]
    exact reads
  | post body statusNow stateNow nonce =>
    obtain ⟨statusStamp, stateStamp, fresh⟩ := proper
    rw [Writer.apply, postInventory]
    cases decodeBody body with
    | none => exact ⟨records, holds, before⟩
    | some candidate =>
      cases valid : candidate.validate with
      | error reason => exact ⟨records, by simpa only [valid] using holds, before⟩
      | ok _ =>
        obtain ⟨named, role⟩ := validate_ok valid
        obtain ⟨blob, written, reads⟩ := holds_service opens tagged strong fresh
          (upsertInto (stamped statusNow stateNow candidate) records)
        have upserts : upsertFile texts aead key (stamped statusNow stateNow candidate) nonce file =
            .ok (upsertInto (stamped statusNow stateNow candidate) records, blob) := by
          rw [upsertFile, holds.1]
          simp only [bind, Except.bind, written]
        have stamps : (stamped statusNow stateNow candidate).statusTimestamp ≠ "" ∧
            (stamped statusNow stateNow candidate).stateTimestamp ≠ "" := by
          unfold stamped
          dsimp only
          constructor
          · split <;> assumption
          · split <;> assumption
        refine ⟨upsertInto (stamped statusNow stateNow candidate) records,
          by simpa only [valid, upserts] using reads, ?_⟩
        exact wellFormed_upsert before named role stamps
  | serviceMark timestamp nonce =>
    obtain ⟨stamp, fresh⟩ := proper
    obtain ⟨blob, written, reads⟩ := holds_service opens tagged strong fresh
      (records.map (markRemoved id timestamp))
    refine ⟨_, ?_, wellFormed_marked before stamp⟩
    rw [Writer.apply, manifestMarkRemoved, holds.1]
    simp only [bind, Except.bind, written]
    exact reads
  | clientMark config timestamp nonce =>
    obtain ⟨⟨_, _, _, _, loaded⟩, stamp, fresh⟩ := proper
    obtain ⟨blob, written, reads⟩ := holds_client opens tagged strong fresh
      (removedRecords id timestamp config records)
    refine ⟨_, ?_, wellFormed_removed (Config.sound_of_load loaded) before stamp⟩
    rw [Writer.apply, markManifestRemoved, holds.2]
    simp only [bind, Except.bind, removedRecords_map pyText_injective, encryptRead_pyText, written]
    exact reads

/-- From an absent file, whatever the writers do and in whatever order, both sides read a
registry with distinct, named hosts of a known role and with their timestamps. -/
theorem reached_registries_wellFormed (opens : aead.Opens) (tagged : aead.Tagged)
    (strong : key.length = keyBytes) {writers : List Writer}
    (proper : ∀ writer ∈ writers, writer.Proper) :
    ∃ records, Holds py texts aead key
      (writers.foldl (fun file writer => writer.apply py texts aead key file) none) records ∧
      WellFormed records := by
  have each : ∀ file records, Holds py texts aead key file records → WellFormed records →
      ∃ after, Holds py texts aead key
        (writers.foldl (fun file writer => writer.apply py texts aead key file) file) after ∧
        WellFormed after := by
    induction writers with
    | nil => exact fun _ records holds before => ⟨records, holds, before⟩
    | cons writer rest ih =>
      obtain ⟨here, later⟩ := List.forall_mem_cons.mp proper
      intro file records holds before
      obtain ⟨after, reads, formed⟩ := writer_keeps opens tagged strong here holds before
      exact ih later _ after reads formed
  exact each none [] ⟨rfl, rfl⟩ wellFormed_nil

end Reached

def exampleAddresses : Dict String String :=
  [("apjump", "192.168.1.30"), ("apnode1", "192.168.1.31"), ("apnode2", "192.168.1.32")]

/-- A seed of the example cluster, a registration over it, the removal mark of the service's tool,
a request that is refused, and the mark of the client, each under a nonce of its own. -/
def exampleWriters : List Writer :=
  [.seed (Config.exampleCluster "apjump" Config.exampleNodes) exampleAddresses []
      "2026-01-01T00:00:00Z" (nonceOf 1),
    .post (Utf8.encode "\x7b\"hostname\":\"apnode3\",\"role\":\"backend\"\x7d".toList)
      "2026-01-02T00:00:00Z" "2026-01-02T00:00:00Z" (nonceOf 2),
    .serviceMark "2026-01-03T00:00:00Z" (nonceOf 3),
    .post [123, 125] "2026-01-04T00:00:00Z" "2026-01-04T00:00:00Z" (nonceOf 4),
    .clientMark (Config.exampleCluster "apjump" Config.exampleNodes) "2026-01-05T00:00:00Z"
      (nonceOf 5)]
where
  nonceOf (first : UInt8) : Bytes := first :: exampleNonce.drop 1

theorem exampleWriters_proper : ∀ writer ∈ exampleWriters, writer.Proper := by
  have accepted : ∃ platform path base overlay,
      Config.loadClusterConfig platform path base overlay =
        .ok (Config.exampleCluster "apjump" Config.exampleNodes) :=
    ⟨_, _, _, _, Config.example_loads⟩
  have sized : ∀ first, (exampleWriters.nonceOf first).length = nonceBytes := fun _ => rfl
  simp [exampleWriters, Writer.Proper, accepted, sized]

theorem example_registry_wellFormed :
    ∃ records, Holds exampleInterpreter exampleTexts aesGcm exampleKey
      (exampleWriters.foldl (fun file writer => writer.apply exampleInterpreter exampleTexts
        aesGcm exampleKey file) none) records ∧
      WellFormed records :=
  reached_registries_wellFormed aesGcm_opens aesGcm_tagged rfl exampleWriters_proper

end VmDeploy.Inventory
