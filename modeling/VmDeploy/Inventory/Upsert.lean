import VmDeploy.Config
import VmDeploy.Inventory.Client
import VmDeploy.Inventory.Datastore
import VmDeploy.Python.Dict

/-! Registries that are built and changed by upserts, in either language. -/

set_option autoImplicit false

namespace VmDeploy.Inventory

open Python

section Upsert

variable {T : Type} [DecidableEq T] {candidate : Record T} {records : List (Record T)}

theorem upsertInto_fresh (fresh : candidate.hostname ∉ records.map Record.hostname) :
    upsertInto candidate records = records ++ [candidate] := by
  induction records with
  | nil => rfl
  | cons record rest ih =>
    rw [List.map_cons, List.mem_cons, not_or] at fresh
    rw [upsertInto, if_neg (Ne.symm fresh.1), ih fresh.2, List.cons_append]

theorem hostnames_upsertInto (candidate : Record T) (records : List (Record T)) :
    (upsertInto candidate records).map Record.hostname =
      if candidate.hostname ∈ records.map Record.hostname then records.map Record.hostname
      else records.map Record.hostname ++ [candidate.hostname] := by
  induction records with
  | nil => rfl
  | cons record rest ih =>
    rw [upsertInto]
    by_cases here : record.hostname = candidate.hostname
    · simp [here]
    · have differs : candidate.hostname ≠ record.hostname := fun same => here same.symm
      rw [if_neg here, List.map_cons, ih, List.map_cons]
      by_cases later : candidate.hostname ∈ rest.map Record.hostname
      · rw [if_pos later, if_pos (List.mem_cons_of_mem _ later)]
      · rw [if_neg later, if_neg (by simpa [differs] using later), List.cons_append]

theorem nodup_upsertInto (distinct : (records.map Record.hostname).Nodup) :
    ((upsertInto candidate records).map Record.hostname).Nodup := by
  rw [hostnames_upsertInto]
  split
  · exact distinct
  · next fresh =>
    apply List.nodup_append.mpr
    refine ⟨distinct, List.nodup_singleton _, ?_⟩
    rintro hostname member other here rfl
    rw [List.mem_singleton.mp here] at member
    exact fresh member

theorem mem_upsertInto {record : Record T} (member : record ∈ upsertInto candidate records) :
    record = candidate ∨ record ∈ records := by
  induction records with
  | nil => exact .inl (List.mem_singleton.mp member)
  | cons first rest ih =>
    rw [upsertInto] at member
    split at member
    · rcases List.mem_cons.mp member with same | later
      · exact .inl same
      · exact .inr (List.mem_cons_of_mem _ later)
    · rcases List.mem_cons.mp member with same | later
      · exact .inr (same ▸ List.mem_cons_self)
      · exact (ih later).imp_right (List.mem_cons_of_mem _)

-- Upserts of hostnames that are all new append.
theorem foldl_upsertInto_fresh {A : Type} (record : A → Record T) {hosts : List A}
    {records : List (Record T)}
    (distinct : ((records ++ hosts.map record).map Record.hostname).Nodup) :
    hosts.foldl (fun records host => upsertInto (record host) records) records =
      records ++ hosts.map record := by
  induction hosts generalizing records with
  | nil => simp
  | cons host rest ih =>
    have fresh : (record host).hostname ∉ records.map Record.hostname := by
      rw [List.map_append, List.nodup_append] at distinct
      intro member
      exact distinct.2.2 _ member _ (by simp) rfl
    rw [List.foldl_cons, upsertInto_fresh fresh, ih (by simpa using distinct)]
    simp

end Upsert

/-- `upsert` of `inventory.py`, whose loop is the one of the service. -/
def upsert (records : List (Record String)) (candidate : Record String) : List (Record String) :=
  upsertInto candidate records

def deployedRecord (timestamp : String) (host : HostConfig) (address ipv6 : String) :
    Record String where
  hostname := host.hostname
  role := host.role.value
  ipv4 := address
  ipv6 := ipv6
  status := if address ≠ "" then "Deployed" else "Unreachable"
  statusTimestamp := timestamp
  state := if address ≠ "" then "Active" else "Inactive"
  stateTimestamp := timestamp

/-- `build_records` at the time of the stamp. -/
def buildRecords (timestamp : String) (config : ClusterConfig)
    (addresses ipv6Addresses : Dict String String) : List (Record String) :=
  config.allHosts.foldl (fun records host =>
    upsert records (deployedRecord timestamp host ((addresses.get? host.hostname).getD "")
      ((ipv6Addresses.get? host.hostname).getD ""))) []

theorem nodup_foldl_upsert {A : Type} (record : A → Record String) (hosts : List A)
    {records : List (Record String)} (distinct : (records.map Record.hostname).Nodup) :
    ((hosts.foldl (fun records host => upsert records (record host)) records).map
      Record.hostname).Nodup := by
  induction hosts generalizing records with
  | nil => exact distinct
  | cons host rest ih => exact ih (nodup_upsertInto distinct)

theorem foldl_upsert_fresh {A : Type} (record : A → Record String) {hosts : List A}
    {records : List (Record String)}
    (distinct : ((records ++ hosts.map record).map Record.hostname).Nodup) :
    hosts.foldl (fun records host => upsert records (record host)) records =
      records ++ hosts.map record :=
  foldl_upsertInto_fresh record distinct

section Loops

variable {T : Type} [DecidableEq T]

/-- The loop of `Store.Upsert` from an index on: the records, and whether one was replaced. -/
def replaceFrom (candidate : Record T) (records : List (Record T)) (index : Nat) :
    List (Record T) × Bool :=
  if bound : index < records.length then
    if records[index].hostname = candidate.hostname then (records.set index candidate, true)
    else replaceFrom candidate records (index + 1)
  else (records, false)
termination_by records.length - index

def storeUpsert (candidate : Record T) (records : List (Record T)) : List (Record T) :=
  let result := replaceFrom candidate records 0
  if result.2 then result.1 else result.1 ++ [candidate]

/-- The loop of `upsert`, which returns where it finds the hostname. -/
def returnReplaced (candidate : Record T) (updated : List (Record T)) :
    List (Record T × Nat) → Option (List (Record T))
  | [] => none
  | (existing, index) :: rest =>
      if existing.hostname = candidate.hostname then some (updated.set index candidate)
      else returnReplaced candidate updated rest

/-- `upsert` of the client, over `enumerate(updated)`. -/
def clientUpsert (records : List (Record T)) (candidate : Record T) : List (Record T) :=
  match returnReplaced candidate records records.zipIdx with
  | some updated => updated
  | none => records ++ [candidate]

variable {candidate : Record T}

theorem replaceFrom_append (passed rest : List (Record T))
    (others : ∀ record ∈ passed, record.hostname ≠ candidate.hostname) :
    (let result := replaceFrom candidate (passed ++ rest) passed.length
      if result.2 then result.1 else result.1 ++ [candidate]) =
      passed ++ upsertInto candidate rest := by
  induction rest generalizing passed with
  | nil =>
    unfold replaceFrom
    simp [upsertInto]
  | cons record rest ih =>
    unfold replaceFrom
    by_cases here : record.hostname = candidate.hostname
    · simp [here, upsertInto]
    · have later := ih (passed ++ [record]) (by
        intro other member
        rcases List.mem_append.mp member with old | new
        · exact others other old
        · rw [List.mem_singleton.mp new]
          exact here)
      rw [List.append_assoc, List.singleton_append, List.length_append] at later
      simpa [here, upsertInto] using later

theorem storeUpsert_eq (candidate : Record T) (records : List (Record T)) :
    storeUpsert candidate records = upsertInto candidate records :=
  replaceFrom_append [] records (fun _ member => absurd member List.not_mem_nil)

theorem returnReplaced_append (passed rest : List (Record T)) :
    (returnReplaced candidate (passed ++ rest) (rest.zipIdx passed.length)).getD
        (passed ++ rest ++ [candidate]) = passed ++ upsertInto candidate rest := by
  induction rest generalizing passed with
  | nil => simp [returnReplaced, upsertInto]
  | cons record rest ih =>
    rw [List.zipIdx_cons, returnReplaced]
    by_cases here : record.hostname = candidate.hostname
    · simp [here, upsertInto]
    · have later := ih (passed ++ [record])
      rw [List.append_assoc, List.singleton_append, List.length_append] at later
      simpa [here, upsertInto] using later

theorem clientUpsert_eq (records : List (Record T)) (candidate : Record T) :
    clientUpsert records candidate = upsertInto candidate records := by
  have whole : (returnReplaced candidate records records.zipIdx).getD (records ++ [candidate]) =
      upsertInto candidate records :=
    returnReplaced_append [] records
  unfold clientUpsert
  cases found : returnReplaced candidate records records.zipIdx with
  | some updated => simpa [found] using whole
  | none => simpa [found] using whole

end Loops

section Sequences

variable {T : Type} [DecidableEq T] {candidate : Record T} {records : List (Record T)}

def newHostnames (known given : List T) : List T :=
  (given.filter fun hostname => hostname ∉ known).eraseDups

theorem newHostnames_cons (known given : List T) (hostname : T) :
    newHostnames known (hostname :: given) =
      if hostname ∈ known then newHostnames known given
      else hostname :: newHostnames (known ++ [hostname]) given := by
  by_cases old : hostname ∈ known
  · simp [newHostnames, old]
  · rw [if_neg old, newHostnames, List.filter_cons_of_pos (by simpa using old),
      List.eraseDups_cons, List.filter_filter, newHostnames]
    congr 3
    funext other
    simp [and_comm, beq_eq_decide]

theorem find?_upsertInto (hostname : T) :
    (upsertInto candidate records).find? (fun record => record.hostname = hostname) =
      if candidate.hostname = hostname then some candidate
      else records.find? (fun record => record.hostname = hostname) := by
  induction records with
  | nil => by_cases wanted : candidate.hostname = hostname <;> simp [upsertInto, wanted]
  | cons record rest ih =>
    rw [upsertInto]
    by_cases here : record.hostname = candidate.hostname
    · rw [if_pos here]
      by_cases wanted : candidate.hostname = hostname
      · simp [wanted]
      · simp [wanted, here]
    · rw [if_neg here, List.find?_cons, List.find?_cons, ih]
      by_cases wanted : candidate.hostname = hostname
      · have other : record.hostname ≠ hostname := fun same => here (same.trans wanted.symm)
        simp [wanted, other]
      · simp [wanted]

theorem hostnames_foldl_upsert (candidates records : List (Record T)) :
    (candidates.foldl (fun records candidate => upsertInto candidate records) records).map
        Record.hostname =
      records.map Record.hostname ++
        newHostnames (records.map Record.hostname) (candidates.map Record.hostname) := by
  induction candidates generalizing records with
  | nil => simp [newHostnames]
  | cons candidate rest ih =>
    rw [List.foldl_cons, ih, hostnames_upsertInto, List.map_cons, newHostnames_cons]
    split
    · rfl
    · rw [List.append_assoc, List.singleton_append]

-- Of the records given for a hostname, the last one.
theorem find?_foldl_upsert (candidates records : List (Record T)) (hostname : T) :
    (candidates.foldl (fun records candidate => upsertInto candidate records) records).find?
        (fun record => record.hostname = hostname) =
      (candidates.reverse.find? fun record => record.hostname = hostname).or
        (records.find? fun record => record.hostname = hostname) := by
  induction candidates generalizing records with
  | nil => rfl
  | cons candidate rest ih =>
    rw [List.foldl_cons, ih, find?_upsertInto, List.reverse_cons, List.find?_append, Option.or_assoc]
    congr 1
    by_cases wanted : candidate.hostname = hostname <;> simp [wanted]

/-- The two loops agree, and a sequence of upserts keeps the order of the hostnames and the
last record of each. -/
theorem upserts_agree :
    (∀ (candidate : Record T) (records : List (Record T)),
      storeUpsert candidate records = clientUpsert records candidate) ∧
    ∀ records : List (Record T), (records.map Record.hostname).Nodup →
      ∀ candidates : List (Record T),
        let result := candidates.foldl (fun records candidate => storeUpsert candidate records) records
        result.map Record.hostname = records.map Record.hostname ++
            newHostnames (records.map Record.hostname) (candidates.map Record.hostname) ∧
          (result.map Record.hostname).Nodup ∧
          ∀ hostname, result.find? (fun record => record.hostname = hostname) =
            (candidates.reverse.find? fun record => record.hostname = hostname).or
              (records.find? fun record => record.hostname = hostname) := by
  constructor
  · intro candidate records
    rw [storeUpsert_eq, clientUpsert_eq]
  · intro records distinct candidates
    have loops : (fun records candidate => storeUpsert candidate records) =
        fun (records : List (Record T)) candidate => upsertInto candidate records := by
      funext records candidate
      exact storeUpsert_eq candidate records
    rw [loops]
    refine ⟨hostnames_foldl_upsert candidates records, ?_, find?_foldl_upsert candidates records⟩
    induction candidates generalizing records with
    | nil => exact distinct
    | cons candidate rest ih => exact ih _ (nodup_upsertInto distinct)

end Sequences

def listedHost (hostname ipv4 : String) : Record String :=
  ⟨hostname, "backend", ipv4, "", "Deployed", "", "Active", ""⟩

/-- A second address for a known host, and a new host that is given twice. -/
theorem example_upserts :
    ([listedHost "apnode1" "10.0.0.9", listedHost "apnode3" "", listedHost "apnode3" "10.0.0.3"].foldl
      (fun records candidate => storeUpsert candidate records)
      [listedHost "apnode1" "10.0.0.1", listedHost "apnode2" "10.0.0.2"]).map Record.hostname =
      ["apnode1", "apnode2", "apnode3"] :=
  (upserts_agree.2 [listedHost "apnode1" "10.0.0.1", listedHost "apnode2" "10.0.0.2"] (by decide)
    [listedHost "apnode1" "10.0.0.9", listedHost "apnode3" "", listedHost "apnode3" "10.0.0.3"]).1.trans
    (by decide)

end VmDeploy.Inventory
