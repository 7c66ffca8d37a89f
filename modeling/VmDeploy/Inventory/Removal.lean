import VmDeploy.Config.Accepted
import VmDeploy.Inventory.Interop
import VmDeploy.Inventory.Upsert

/-! Marking the hosts of a manifest as removed, on either side, and writing what was read.

The registry of the Python side is generic in the type of its strings, since a manifest may
hold surrogates that no string of the configuration has. -/

set_option autoImplicit false

namespace VmDeploy.Inventory

open Json

section Mark

variable {T S : Type}

/-- A record of a host that is gone, with its last known addresses. -/
def markRemoved (text : String → T) (timestamp : String) (record : Record T) : Record T :=
  { record with
    status := text "Removed"
    statusTimestamp := text timestamp
    state := text "Inactive"
    stateTimestamp := text timestamp }

/-- A host that the manifest did not list. -/
def removedHost (text : String → T) (timestamp : String) (host : HostConfig) : Record T where
  hostname := text host.hostname
  role := text host.role.value
  ipv4 := text ""
  ipv6 := text ""
  status := text "Removed"
  statusTimestamp := text timestamp
  state := text "Inactive"
  stateTimestamp := text timestamp

variable [DecidableEq T] [DecidableEq S]

/-- The first loop of `mark_manifest_removed`. -/
def removeListed (text : String → T) (timestamp : String) (records : List (Record T)) :
    List (Record T) :=
  records.foldl (fun updated record => upsertInto (markRemoved text timestamp record) updated) []

/-- The second loop, over the hosts that were not seen. -/
def removeUnseen (text : String → T) (timestamp : String) (seen : List T)
    (updated : List (Record T)) (hosts : List HostConfig) : List (Record T) :=
  hosts.foldl (fun updated host =>
    if text host.hostname ∈ seen then updated
    else upsertInto (removedHost text timestamp host) updated) updated

/-- The records that `mark_manifest_removed` writes. -/
def removedRecords (text : String → T) (timestamp : String) (config : ClusterConfig)
    (records : List (Record T)) : List (Record T) :=
  removeUnseen text timestamp (records.map Record.hostname)
    (removeListed text timestamp records) config.allHosts

theorem upsertInto_map {text : T → S} (injective : Function.Injective text)
    (candidate : Record T) (records : List (Record T)) :
    upsertInto (candidate.map text) (records.map (Record.map text)) =
      (upsertInto candidate records).map (Record.map text) := by
  induction records with
  | nil => rfl
  | cons record rest ih =>
    have same : (record.map text).hostname = (candidate.map text).hostname ↔
        record.hostname = candidate.hostname := injective.eq_iff
    rw [List.map_cons, upsertInto, upsertInto]
    by_cases here : record.hostname = candidate.hostname
    · rw [if_pos (same.mpr here), if_pos here, List.map_cons]
    · rw [if_neg (mt same.mp here), if_neg here, ih, List.map_cons]

theorem removedRecords_map {text : String → S} (injective : Function.Injective text)
    (timestamp : String) (config : ClusterConfig) (records : List (Record String)) :
    removedRecords text timestamp config (records.map (Record.map text)) =
      (removedRecords id timestamp config records).map (Record.map text) := by
  have listed : ∀ updated : List (Record String),
      (records.map (Record.map text)).foldl
          (fun updated record => upsertInto (markRemoved text timestamp record) updated)
          (updated.map (Record.map text)) =
        (records.foldl
          (fun updated record => upsertInto (markRemoved id timestamp record) updated)
          updated).map (Record.map text) := by
    induction records with
    | nil => exact fun _ => rfl
    | cons record rest ih =>
      intro updated
      have marked : markRemoved text timestamp (record.map text) =
          (markRemoved id timestamp record).map text := rfl
      rw [List.map_cons, List.foldl_cons, List.foldl_cons, marked, upsertInto_map injective]
      exact ih _
  have unseen : ∀ (hosts : List HostConfig) (updated : List (Record String)),
      removeUnseen text timestamp ((records.map (Record.map text)).map Record.hostname)
          (updated.map (Record.map text)) hosts =
        (removeUnseen id timestamp (records.map Record.hostname) updated hosts).map
          (Record.map text) := by
    intro hosts
    induction hosts with
    | nil => exact fun _ => rfl
    | cons host rest ih =>
      intro updated
      have hostnames : (records.map (Record.map text)).map Record.hostname =
          (records.map Record.hostname).map text := by
        simp [List.map_map, Function.comp_def, Record.map, Record.of, Record.get]
      have seen : text host.hostname ∈ (records.map (Record.map text)).map Record.hostname ↔
          id host.hostname ∈ records.map Record.hostname := by
        rw [hostnames]
        exact List.mem_map_of_injective injective
      rw [removeUnseen, removeUnseen, List.foldl_cons, List.foldl_cons]
      by_cases known : id host.hostname ∈ records.map Record.hostname
      · rw [if_pos (seen.mpr known), if_pos known]
        exact ih updated
      · have fresh : removedHost text timestamp host = (removedHost id timestamp host).map text :=
          rfl
        rw [if_neg (mt seen.mp known), if_neg known, fresh, upsertInto_map injective]
        exact ih _
  rw [removedRecords, removedRecords, ← unseen]
  exact congrArg (removeUnseen text timestamp _ · _) (listed [])

-- A property of every record that an upsert puts in, and of those that were there.
theorem forall_upsertInto {P : Record T → Prop} {candidate : Record T} {records : List (Record T)}
    (here : P candidate) (others : ∀ record ∈ records, P record) :
    ∀ record ∈ upsertInto candidate records, P record := by
  intro record member
  rcases mem_upsertInto member with rfl | member
  · exact here
  · exact others record member

theorem forall_removeListed {P : Record T → Prop} {text : String → T} {timestamp : String}
    {records : List (Record T)}
    (marked : ∀ record ∈ records, P (markRemoved text timestamp record)) :
    ∀ record ∈ removeListed text timestamp records, P record := by
  have each : ∀ updated : List (Record T), (∀ record ∈ updated, P record) →
      ∀ record ∈ records.foldl
        (fun updated record => upsertInto (markRemoved text timestamp record) updated) updated,
        P record := by
    induction records with
    | nil => exact fun _ all => all
    | cons first rest ih =>
      obtain ⟨here, later⟩ := List.forall_mem_cons.mp marked
      exact fun updated all => ih later _ (forall_upsertInto here all)
  exact each [] (fun _ member => absurd member List.not_mem_nil)

theorem forall_removeUnseen {P : Record T → Prop} {text : String → T} {timestamp : String}
    {seen : List T} {updated : List (Record T)} {hosts : List HostConfig}
    (before : ∀ record ∈ updated, P record)
    (added : ∀ host ∈ hosts, P (removedHost text timestamp host)) :
    ∀ record ∈ removeUnseen text timestamp seen updated hosts, P record := by
  induction hosts generalizing updated with
  | nil => exact before
  | cons host rest ih =>
    obtain ⟨here, later⟩ := List.forall_mem_cons.mp added
    rw [removeUnseen, List.foldl_cons]
    split
    · exact ih before later
    · exact ih (forall_upsertInto here before) later

theorem mem_hostnames_upsertInto {hostname : T} {candidate : Record T} {records : List (Record T)} :
    hostname ∈ (upsertInto candidate records).map Record.hostname ↔
      hostname = candidate.hostname ∨ hostname ∈ records.map Record.hostname := by
  rw [hostnames_upsertInto]
  split
  · next known =>
    constructor
    · exact .inr
    · rintro (rfl | member)
      · exact known
      · exact member
  · rw [List.mem_append, List.mem_singleton, or_comm]

-- No host of the configuration is left out.
theorem hosts_removedRecords (text : String → T) (timestamp : String) (config : ClusterConfig)
    (records : List (Record T)) : ∀ host ∈ config.allHosts,
      text host.hostname ∈ (removedRecords text timestamp config records).map Record.hostname := by
  have listed : ∀ (records updated : List (Record T)) (hostname : T),
      hostname ∈ updated.map Record.hostname ∨ hostname ∈ records.map Record.hostname →
        hostname ∈ (records.foldl (fun updated record =>
          upsertInto (markRemoved text timestamp record) updated) updated).map Record.hostname := by
    intro records
    induction records with
    | nil => exact fun updated hostname known => known.resolve_right List.not_mem_nil
    | cons first rest ih =>
      intro updated hostname known
      apply ih
      rw [mem_hostnames_upsertInto]
      rcases known with before | member
      · exact .inl (.inr before)
      · rcases List.mem_cons.mp member with here | later
        · exact .inl (.inl here)
        · exact .inr later
  have unseen : ∀ (hosts : List HostConfig) (seen : List T) (updated : List (Record T)),
      (∀ hostname ∈ seen, hostname ∈ updated.map Record.hostname) →
        ∀ hostname, hostname ∈ updated.map Record.hostname ∨
          hostname ∈ hosts.map (fun host => text host.hostname) →
          hostname ∈ (removeUnseen text timestamp seen updated hosts).map Record.hostname := by
    intro hosts seen
    induction hosts with
    | nil => exact fun updated _ hostname known => known.resolve_right List.not_mem_nil
    | cons host rest ih =>
      intro updated covered hostname known
      rw [removeUnseen, List.foldl_cons]
      split
      · next old =>
        apply ih updated covered
        rcases known with before | member
        · exact .inl before
        · rcases List.mem_cons.mp member with rfl | later
          · exact .inl (covered _ old)
          · exact .inr later
      · apply ih
        · exact fun other member => mem_hostnames_upsertInto.mpr (.inr (covered other member))
        · rw [mem_hostnames_upsertInto]
          rcases known with before | member
          · exact .inl (.inr before)
          · rcases List.mem_cons.mp member with here | later
            · exact .inl (.inl here)
            · exact .inr later
  intro host member
  apply unseen
  · exact fun hostname known => listed records [] hostname (.inr known)
  · exact .inr (List.mem_map_of_mem member)

theorem nodup_removedRecords (text : String → T) (timestamp : String) (config : ClusterConfig)
    (records : List (Record T)) :
    ((removedRecords text timestamp config records).map Record.hostname).Nodup := by
  have listed : ((removeListed text timestamp records).map Record.hostname).Nodup := by
    have each : ∀ updated : List (Record T), (updated.map Record.hostname).Nodup →
        ((records.foldl
          (fun updated record => upsertInto (markRemoved text timestamp record) updated)
          updated).map Record.hostname).Nodup := by
      induction records with
      | nil => exact fun _ distinct => distinct
      | cons first rest ih => exact fun updated distinct => ih _ (nodup_upsertInto distinct)
    exact each [] List.nodup_nil
  have unseen : ∀ (hosts : List HostConfig) (seen : List T) (updated : List (Record T)),
      (updated.map Record.hostname).Nodup →
        ((removeUnseen text timestamp seen updated hosts).map Record.hostname).Nodup := by
    intro hosts seen
    induction hosts with
    | nil => exact fun _ distinct => distinct
    | cons host rest ih =>
      intro updated distinct
      rw [removeUnseen, List.foldl_cons]
      split
      · exact ih updated distinct
      · exact ih _ (nodup_upsertInto distinct)
  exact unseen _ _ _ listed

/-- The loop of `manifestMarkRemoved` over the records of the manifest. -/
def markRecords (text : String → T) (timestamp : String) : List (Record T) → List (Record T)
  | [] => []
  | record :: rest =>
      { record with
        status := text "Removed"
        statusTimestamp := text timestamp
        state := text "Inactive"
        stateTimestamp := text timestamp } :: markRecords text timestamp rest

omit [DecidableEq T] in
theorem markRecords_eq (text : String → T) (timestamp : String) (records : List (Record T)) :
    markRecords text timestamp records = records.map (markRemoved text timestamp) := by
  induction records with
  | nil => rfl
  | cons record rest ih =>
    rw [markRecords, ih]
    rfl

omit [DecidableEq T] in
theorem hostnames_marked (text : String → T) (timestamp : String) (records : List (Record T)) :
    (records.map (markRemoved text timestamp)).map Record.hostname = records.map Record.hostname := by
  rw [List.map_map]
  rfl

theorem removeListed_eq {text : String → T} {timestamp : String} {records : List (Record T)}
    (distinct : (records.map Record.hostname).Nodup) :
    removeListed text timestamp records = records.map (markRemoved text timestamp) := by
  have fresh : (([] ++ records.map (markRemoved text timestamp)).map Record.hostname).Nodup := by
    rw [List.nil_append, hostnames_marked]
    exact distinct
  exact foldl_upsertInto_fresh (markRemoved text timestamp) fresh

def unlisted (text : String → T) (config : ClusterConfig) (records : List (Record T)) :
    List HostConfig :=
  config.allHosts.filter fun host => text host.hostname ∉ records.map Record.hostname

theorem removedRecords_eq {text : String → T} (injective : Function.Injective text)
    {timestamp : String} {config : ClusterConfig} {records : List (Record T)}
    (distinct : (records.map Record.hostname).Nodup)
    (hosts : (config.allHosts.map HostConfig.hostname).Nodup) :
    removedRecords text timestamp config records =
      records.map (markRemoved text timestamp) ++
        (unlisted text config records).map (removedHost text timestamp) := by
  have skips : removeUnseen text timestamp (records.map Record.hostname)
      (records.map (markRemoved text timestamp)) config.allHosts =
      (unlisted text config records).foldl
        (fun updated host => upsertInto (removedHost text timestamp host) updated)
        (records.map (markRemoved text timestamp)) := by
    rw [removeUnseen, unlisted, List.foldl_filter]
    congr 1
    funext updated host
    by_cases seen : text host.hostname ∈ records.map Record.hostname <;> simp [seen]
  have names : ((unlisted text config records).map (removedHost text timestamp)).map
      Record.hostname = (unlisted text config records).map (text ∘ HostConfig.hostname) :=
    List.map_map
  rw [removedRecords, removeListed_eq distinct, skips]
  apply foldl_upsertInto_fresh
  rw [List.map_append, hostnames_marked, names]
  apply List.nodup_append.mpr
  refine ⟨distinct, ?_, ?_⟩
  · have all : (config.allHosts.map (text ∘ HostConfig.hostname)).Nodup := by
      rw [← List.map_map]
      exact hosts.map injective
    exact all.sublist (List.filter_sublist.map _)
  · rintro hostname listed other member rfl
    obtain ⟨host, absent, rfl⟩ := List.mem_map.mp member
    have unknown := (List.mem_filter.mp absent).2
    exact of_decide_eq_true unknown listed

theorem unlisted_removedRecords (text : String → T) (timestamp : String) (config : ClusterConfig)
    (records : List (Record T)) :
    unlisted text config (removedRecords text timestamp config records) = [] := by
  unfold unlisted
  apply List.filter_eq_nil_iff.mpr
  intro host member
  have listed := hosts_removedRecords text timestamp config records host member
  simpa using listed

end Mark

/-- `json.dumps` of what a string holds. -/
def pointEscape : Point → List Char
  | .scalar c => asciiEscape c
  | .half unit => unicodeEscape unit

def dumpText (content : Content) : List Char :=
  '"' :: content.flatMap pointEscape ++ ['"']

def dumpRecord (record : Record Content) : List Char :=
  block '\x7b' '\x7d' 2 (sortedFields.map fun field =>
    quoted asciiEscape field.name.toList ++ ([':', ' '] ++ dumpText (record.get field)))

def dumpRecords (records : List (Record Content)) : List Char :=
  block '[' ']' 0 (records.map dumpRecord)

def encryptRead (aead : Aead) (records : List (Record Content)) (key nonce : Bytes) :
    Except PyError Bytes :=
  if key.length ≠ keyBytes then .error (keyLengthError key)
  else .ok (payload aead key nonce (Utf8.encode (dumpRecords records)))

theorem dumpText_pyText (text : String) : dumpText (pyText text) = quoted asciiEscape text.toList := by
  rw [dumpText, pyText, plain, List.flatMap_map, quoted]
  rfl

-- Records of characters are written alike, whether they were read or not.
theorem encryptRead_pyText (aead : Aead) (records : List (Record String)) (key nonce : Bytes) :
    encryptRead aead (records.map (Record.map pyText)) key nonce =
      encryptRecords aead records key nonce := by
  have one : ∀ record : Record String,
      dumpRecord (record.map pyText) = objectText asciiEscape (toDict record) := by
    intro record
    rw [dumpRecord, objectText, toDict, List.map_map]
    congr 1
    apply List.map_congr_left
    intro field _
    rw [get_map, dumpText_pyText]
    rfl
  have all : dumpRecords (records.map (Record.map pyText)) =
      document asciiEscape (records.map toDict) := by
    rw [dumpRecords, document, List.map_map, List.map_map]
    congr 1
    exact List.map_congr_left fun record _ => one record
  rw [encryptRead, encryptRecords, all]
  rfl

end VmDeploy.Inventory
