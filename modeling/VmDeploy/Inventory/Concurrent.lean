import VmDeploy.Inventory.Handlers

/-! Concurrent calls of the store at every moment of a run, and what becomes of hosts that are
seeded meanwhile. -/

set_option autoImplicit false

open Effects

namespace VmDeploy.Inventory

section Concurrent

variable {R : Type} {texts : GoTexts} {aead : Aead} {store : Store} {call : R → StoreCall}
  {initial : List (Record String)} {file : Option Bytes} {start : Directory}
  {pool : Pool storeSignature ServiceError StoreAnswer R Directory}

-- The changes of the directory are the renames, in their order.
structure Serial (texts : GoTexts) (aead : Aead) (store : Store) (call : R → StoreCall)
    (initial : List (Record String)) (file : Option Bytes)
    (pool : Pool storeSignature ServiceError StoreAnswer R Directory) : Prop where
  stored : (pool.world.changes = [] ∧ pool.world.file = file) ∨
    ∃ content, pool.world.file = some content ∧
      Payload aead store.key (registryAfter initial pool.world.changes) content
  loads : loadRecords texts aead store.key pool.world.file =
    .ok (registryAfter initial pool.world.changes)
  upserts : ∀ change ∈ pool.world.changes, ∃ who thread candidate seen content,
    change = .replaced who (.upsert candidate) seen content ∧ pool.threads[who]? = some thread ∧
      call thread.request = .upsert candidate
  once : (pool.world.changes.filterMap Change.who?).Nodup
  returned : ∀ (who : Nat) (thread : Thread storeSignature ServiceError StoreAnswer R Directory)
    (candidate : Record String) (answer : StoreAnswer) (left : Directory),
    pool.threads[who]? = some thread → call thread.request = .upsert candidate →
      thread.phase = .ended (.returned answer) left → ∃ before content,
        before ++ [.replaced who (.upsert candidate) before.length content] <+: pool.world.changes ∧
          answer = .records (upsertInto candidate (registryAfter initial before))
  failed : ∀ (who : Nat) (thread : Thread storeSignature ServiceError StoreAnswer R Directory)
    (candidate : Record String) (error : ServiceError) (left : Directory),
    pool.threads[who]? = some thread → call thread.request = .upsert candidate →
      thread.phase = .ended (.raised error) left → Unreplaced who pool.world ∧
        ∀ name temp, pool.world.temps name = some temp → temp.creator ≠ some who
  listed : ∀ (who : Nat) (thread : Thread storeSignature ServiceError StoreAnswer R Directory)
    (answer : StoreAnswer) (left : Directory),
    pool.threads[who]? = some thread → call thread.request = .load →
      thread.phase = .ended (.returned answer) left → ∃ moment,
        thread.called.changes <+: moment ∧ moment <+: left.changes ∧
          left.changes <+: pool.world.changes ∧ answer = .records (registryAfter initial moment)

-- At its rename, each upsert has seen every change before it: no seed has come since it read the file.
def Unraced (changes : List Change) : Prop :=
  ∀ before who made seen content,
    before ++ [.replaced who made seen content] <+: changes → seen = before.length

/-- Every host of the last seed is among the records, as it was seeded or as an upsert after the
seed has put it. -/
def SeedStands (changes : List Change) (records : List (Record String)) : Prop :=
  ∀ before seeds content after, changes = before ++ .seeded seeds content :: after →
    (∀ change ∈ after, ¬ change.IsSeed) → ∀ hostname ∈ seeds.map Record.hostname,
      ∃ record, records.find? (fun record => record.hostname = hostname) = some record ∧
        (seeds.find? (fun record => record.hostname = hostname) = some record ∨
          ∃ who seen blob, .replaced who (.upsert record) seen blob ∈ after)

theorem newest?_mem {hostname : String} {changes : List Change} {record : Record String}
    (newest : newest? hostname changes = some record) :
    ∃ who seen content, .replaced who (.upsert record) seen content ∈ changes := by
  obtain ⟨change, member, put⟩ := List.exists_of_findSome?_eq_some newest
  rw [List.mem_reverse] at member
  unfold Change.record? at put
  split at put
  · split at put
    · cases put
      exact ⟨_, _, _, member⟩
    · cases put
  · cases put

theorem not_stale {before after : List Change} {seeds : List (Record String)} {content : Bytes}
    (unraced : Unraced (before ++ .seeded seeds content :: after)) : ¬ Stale before.length after := by
  cases after with
  | nil => exact id
  | cons change rest =>
    cases change with
    | seeded records further => exact id
    | replaced who made seen further =>
      have all := unraced (before ++ [.seeded seeds content]) who made seen further
        ⟨rest, by simp only [List.append_assoc, List.cons_append, List.nil_append]⟩
      rw [List.length_append, List.length_singleton] at all
      rw [Stale]
      omega

/-- In a run whose upserts all rename over the file that they have read, the hosts of a seed are in
every later state until the next seed. -/
theorem seeded_hosts_stand (opens : aead.Opens) (tagged : aead.Tagged)
    (loads : loadRecords texts aead store.key file = .ok initial) (untouched : start.Untouched file)
    (reached : (storeServer texts aead store call (Seeds aead store.key)).Reached start pool)
    (unraced : Unraced pool.world.changes) :
    ∃ records, loadRecords texts aead store.key pool.world.file = .ok records ∧
      SeedStands pool.world.changes records := by
  have kept := store_kept opens tagged loads untouched (fun _ _ => id) reached
  have recorded : Recorded aead store initial file pool.world := kept.inv
  refine ⟨_, recorded_loads opens tagged loads recorded, ?_⟩
  intro before seeds content after changes unseeded hostname seeded
  rw [changes] at unraced
  rw [changes, registry_fresh recorded changes unseeded (not_stale unraced),
    find?_registryAfter hostname unseeded]
  cases newest : newest? hostname after with
  | some record => exact ⟨record, rfl, .inr (newest?_mem newest)⟩
  | none =>
    obtain ⟨record, member, rfl⟩ := List.mem_map.mp seeded
    cases found : seeds.find? fun other => other.hostname = record.hostname with
    | some first => exact ⟨first, rfl, .inl rfl⟩
    | none => exact absurd (decide_eq_true rfl) (List.find?_eq_none.mp found record member)

/-- A seed and the `POST` after it. -/
theorem example_seed_stands : ∃ (content blob : Bytes) (left : Directory),
    left.changes = [.seeded exampleSeeds content, .replaced 0 examplePost.call 1 blob] ∧
      ∃ records, loadRecords exampleTexts aesGcm exampleKey left.file = .ok records ∧
        SeedStands left.changes records := by
  obtain ⟨content, blob, seeded, left, reached, changes⟩ := example_post_served
  refine ⟨content, blob, left, changes, ?_⟩
  have unraced : Unraced left.changes := by
    rintro before who made seen further ⟨after, same⟩
    rw [changes] at same
    match before, same with
    | [], same => cases same
    | [_], same =>
      cases same
      rfl
    | _ :: _ :: _, same => simp at same
  exact seeded_hosts_stand aesGcm_opens aesGcm_tagged rfl example_untouched reached unraced

-- The upsert has read the empty registry when the hosts of the cluster are seeded.
theorem seeded_hosts_lost :
    ¬ ∀ pool, (storeServer exampleTexts aesGcm exampleStore id (Seeds aesGcm exampleKey)).Reached
        exampleStart pool →
      ∃ records, loadRecords exampleTexts aesGcm exampleKey pool.world.file = .ok records ∧
        SeedStands pool.world.changes records := by
  intro stands
  obtain ⟨left, content, blob, reached, changes, loads⟩ :=
    overtaken_reached aesGcm_opens aesGcm_tagged exampleNode exampleSeeds
  obtain ⟨records, read, stand⟩ := stands _ reached
  cases read.symm.trans loads
  have plain : ∀ change ∈ [Change.replaced 0 (.upsert exampleNode) 0 blob], ¬ change.IsSeed := by
    intro change member
    rw [List.mem_singleton.mp member]
    exact id
  obtain ⟨record, found, -⟩ := stand [] exampleSeeds content _ changes plain "apjump" (by decide)
  have gone : ([exampleNode] : List (Record String)).find?
      (fun record => record.hostname = "apjump") = none := rfl
  cases gone.symm.trans found

end Concurrent

end VmDeploy.Inventory
