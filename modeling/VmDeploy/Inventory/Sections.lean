import Mathlib.Data.List.Nodup
import VmDeploy.Inventory.Store

/-! What the methods of the store do to a datastore that is as it should be, step by step, while
others may replace its file. -/

set_option autoImplicit false

open Effects

namespace VmDeploy.Inventory

section Versions

variable {initial : List (Record String)} {changes : List Change}

theorem versions_snoc (changes : List Change) (change : Change) :
    versions initial (changes ++ [change]) =
      addVersion initial (versions initial changes) change := by
  rw [versions, List.foldl_append]
  rfl

theorem addVersion_append (versions : List (List (Record String))) (change : Change) :
    ∃ last, addVersion initial versions change = versions ++ [last] := by
  cases change with
  | seeded records content => exact ⟨_, rfl⟩
  | replaced who call seen content => exact ⟨_, rfl⟩

theorem length_versions (changes : List Change) :
    (versions initial changes).length = changes.length + 1 := by
  induction changes using List.reverseRecOn with
  | nil => rfl
  | append_singleton changes change ih =>
    obtain ⟨last, added⟩ := @addVersion_append initial (versions initial changes) change
    rw [versions_snoc, added, List.length_append, List.length_append, ih]
    rfl

theorem version_append {count : Nat} (within : count ≤ changes.length) (later : List Change) :
    version initial (changes ++ later) count = version initial changes count := by
  induction later using List.reverseRecOn with
  | nil => rw [List.append_nil]
  | append_singleton later change ih =>
    obtain ⟨last, added⟩ :=
      @addVersion_append initial (versions initial (changes ++ later)) change
    have inside : count < (versions initial (changes ++ later)).length := by
      rw [length_versions, List.length_append]
      omega
    rw [← ih, version, ← List.append_assoc, versions_snoc, added, List.getElem?_append_left inside,
      version]

theorem version_follows {later : List Change} (follows : changes <+: later) {count : Nat}
    (within : count ≤ changes.length) :
    version initial later count = version initial changes count := by
  obtain ⟨rest, rfl⟩ := follows
  exact version_append within rest

theorem version_take {count : Nat} (within : count ≤ changes.length) :
    version initial changes count = registry initial (changes.take count) := by
  rw [registry, List.length_take_of_le within]
  exact version_follows (List.take_prefix count changes) (by rw [List.length_take_of_le within])

theorem registry_snoc (changes : List Change) (change : Change) :
    (versions initial (changes ++ [change]))[changes.length + 1]?.getD initial =
      registry initial (changes ++ [change]) := by
  rw [registry, version, List.length_append]
  rfl

theorem registry_seeded (changes : List Change) (records : List (Record String)) (content : Bytes) :
    registry initial (changes ++ [.seeded records content]) = records := by
  rw [← registry_snoc, versions_snoc, addVersion, ← @length_versions initial changes,
    List.getElem?_concat_length]
  rfl

theorem registry_replaced (changes : List Change) (who : Nat) (call : StoreCall) (seen : Nat)
    (content : Bytes) :
    registry initial (changes ++ [.replaced who call seen content]) =
      call.apply (version initial changes seen) := by
  rw [← registry_snoc, versions_snoc, addVersion, ← @length_versions initial changes,
    List.getElem?_concat_length]
  rfl

end Versions

theorem fileAfter_snoc (file : Option Bytes) (changes : List Change) (change : Change) :
    fileAfter file (changes ++ [change]) = some change.content := by
  rw [fileAfter, List.getLast?_concat]
  rfl

def Change.IsSeed : Change → Prop
  | .seeded _ _ => True
  | .replaced _ _ _ _ => False

def Change.who? : Change → Option Nat
  | .seeded _ _ => none
  | .replaced who _ _ _ => some who

/-- A whole file that one of the writers makes of the records. -/
inductive Payload (aead : Aead) (key : Bytes) (records : List (Record String)) : Bytes → Prop where
  | service {content : Bytes} (nonce : Nonce) :
      sealRecords aead records key nonce.bytes = .ok content → Payload aead key records content
  | client {content : Bytes} (nonce : Nonce) :
      encryptRecords aead records key nonce.bytes = .ok content → Payload aead key records content

section Contract

variable (aead : Aead) (store : Store) (initial : List (Record String)) (file : Option Bytes)

/-- The file is the first one or what the last change has made of it: each change has put one whole
payload of the registry that is due. A call that has changed it was an upsert, it did so once, and
it has seen every change before its own but for seeds. -/
structure Recorded (directory : Directory) : Prop where
  file : directory.file = fileAfter file directory.changes
  whole : ∀ before change, before ++ [change] <+: directory.changes →
    Payload aead store.key (registry initial (before ++ [change])) change.content
  once : (directory.changes.filterMap Change.who?).Nodup
  seen : ∀ before who call seen content,
    before ++ [.replaced who call seen content] <+: directory.changes →
    (∃ candidate, call = .upsert candidate) ∧ seen ≤ before.length ∧
      ∀ change ∈ before.drop seen, change.IsSeed

def Unreplaced (who : Nat) (directory : Directory) : Prop :=
  who ∉ directory.changes.filterMap Change.who?

/-- The thread has left no temporary file but those that could not be removed. -/
def Clear (who : Nat) (directory : Directory) : Prop :=
  ∀ name temp, directory.temps name = some temp → temp.creator = some who →
    name ∈ directory.unremoved

def Between (directory next : Directory) : Prop :=
  next.temps = directory.temps ∧ next.seen = directory.seen ∧
    next.unremoved = directory.unremoved ∧
    ∃ seeds : List Change, (∀ change ∈ seeds, change.IsSeed) ∧
      next.changes = directory.changes ++ seeds

def Writes (who : Nat) (directory next : Directory) : Prop :=
  (∀ name temp, next.temps name = some temp → temp.creator ≠ some who →
    directory.temps name = some temp) ∧
  directory.unremoved ⊆ next.unremoved ∧
  (next.changes = directory.changes ∨ ∃ call seen content,
    next.changes = directory.changes ++ [.replaced who call seen content])

/-- How a call ends: an upsert by a change of its own, to the registry that it has read during the
call, or without a change; a read with what was there at a moment of the call. -/
inductive Answered (who : Nat) (called left now : Directory) :
    StoreCall → Outcome ServiceError StoreAnswer → Prop where
  | upserted {candidate : Record String} {before : List Change} {seen : Nat} {content : Bytes} :
      called.changes.length ≤ seen → seen ≤ before.length →
      before ++ [.replaced who (.upsert candidate) seen content] <+: left.changes →
      Answered who called left now (.upsert candidate)
        (.returned (.records (upsertInto candidate (version initial before seen))))
  | refused {candidate : Record String} (error : ServiceError) : Unreplaced who now →
      Answered who called left now (.upsert candidate) (.raised error)
  | loaded {count : Nat} : called.changes.length ≤ count → count ≤ left.changes.length →
      Unreplaced who now → Answered who called left now .load
        (.returned (.records (version initial left.changes count)))
  | read {count : Nat} : called.changes.length ≤ count → count ≤ left.changes.length →
      Unreplaced who now → Answered who called left now .rawCiphertext
        (.returned (.blob ((fileAfter file (left.changes.take count)).getD [])))
  | unread {call : StoreCall} (cause : String) : call.mode = .shared → Unreplaced who now →
      Answered who called left now call (.raised (.cannotRead store.path cause))

def storeContract {R : Type} (call : R → StoreCall) :
    Server.Contract ServiceError StoreAnswer R Directory where
  inv := Recorded aead store initial file
  fresh who directory := Unreplaced who directory ∧ Clear who directory
  done who request called outcome left now := left.changes <+: now.changes ∧ Clear who now ∧
    Answered store initial file who called left now (call request) outcome
  between := Between
  writes := Writes
  since directory next := directory.changes <+: next.changes

end Contract

section Between

variable {texts : GoTexts} {aead : Aead} {store : Store} {initial : List (Record String)}
  {file : Option Bytes} {who : Nat} {w next : Directory}

theorem between_refl (w : Directory) : Between w w :=
  ⟨rfl, rfl, rfl, [], fun _ member => absurd member List.not_mem_nil, (List.append_nil _).symm⟩

theorem Between.trans {last : Directory} (first : Between w next) (second : Between next last) :
    Between w last := by
  obtain ⟨temps, seen, unremoved, seeds, each, changes⟩ := first
  obtain ⟨temps', seen', unremoved', more, every, further⟩ := second
  refine ⟨temps'.trans temps, seen'.trans seen, unremoved'.trans unremoved, seeds ++ more, ?_, ?_⟩
  · intro change member
    exact (List.mem_append.mp member).elim (each change) (every change)
  · rw [further, changes, List.append_assoc]

theorem Between.follows (between : Between w next) : w.changes <+: next.changes := by
  obtain ⟨-, -, -, seeds, -, changes⟩ := between
  exact ⟨seeds, changes.symm⟩

theorem filterMap_seeds {seeds : List Change} (each : ∀ change ∈ seeds, change.IsSeed) :
    seeds.filterMap Change.who? = [] := by
  refine List.filterMap_eq_nil_iff.mpr ?_
  intro change member
  cases change with
  | seeded records content => rfl
  | replaced who call seen content => exact (each _ member).elim

theorem Unreplaced.between (unreplaced : Unreplaced who w) (between : Between w next) :
    Unreplaced who next := by
  obtain ⟨-, -, -, seeds, each, changes⟩ := between
  rwa [Unreplaced, changes, List.filterMap_append, filterMap_seeds each, List.append_nil]

theorem Clear.between (clear : Clear who w) (between : Between w next) : Clear who next := by
  rw [Clear, between.1, between.2.2.1]
  exact clear

theorem strong_of_sealed {key nonce content : Bytes} {records : List (Record String)}
    (written : sealRecords aead records key nonce = .ok content) : key.length = keyBytes := by
  by_contra weak
  rw [sealRecords, encrypt, if_pos weak] at written
  cases written

theorem strong_of_encrypted {key nonce content : Bytes} {records : List (Record String)}
    (written : encryptRecords aead records key nonce = .ok content) : key.length = keyBytes := by
  by_contra weak
  rw [encryptRecords, if_pos weak] at written
  cases written

theorem payload_loads (opens : aead.Opens) (tagged : aead.Tagged) {key content : Bytes}
    {records : List (Record String)} (payload : Payload aead key records content) :
    loadRecords texts aead key (some content) = .ok records := by
  cases payload with
  | service nonce written =>
    obtain ⟨blob, same, reads⟩ := @sealRecords_loads texts aead key nonce.bytes opens tagged
      (strong_of_sealed written) nonce.sized records
    rw [written] at same
    cases same
    exact reads
  | client nonce written =>
    have strong := strong_of_encrypted written
    rw [encryptRecords, if_neg (not_not.mpr strong)] at written
    cases written
    exact readDatastore_payload opens tagged texts strong nonce.sized asciiEscape_escapes
      mem_sortedFields records

-- The file is read as the registry that is due.
theorem recorded_loads (opens : aead.Opens) (tagged : aead.Tagged)
    (loads : loadRecords texts aead store.key file = .ok initial)
    (recorded : Recorded aead store initial file w) :
    loadRecords texts aead store.key w.file = .ok (registry initial w.changes) := by
  rw [recorded.file]
  rcases List.eq_nil_or_concat' w.changes with none | ⟨before, change, some⟩
  · rw [none]
    exact loads
  · have payload := recorded.whole before change (some ▸ List.prefix_refl _)
    rw [some, fileAfter_snoc]
    exact payload_loads opens tagged payload

theorem Recorded.of_same (recorded : Recorded aead store initial file w)
    (same : next.file = w.file) (changes : next.changes = w.changes) :
    Recorded aead store initial file next := by
  obtain ⟨content, whole, once, seen⟩ := recorded
  constructor
  · rw [same, changes, content]
  · rwa [changes]
  · rwa [changes]
  · rwa [changes]

-- A seed leaves a datastore as it should be.
theorem recorded_seeds (recorded : Recorded aead store initial file w)
    (seeds : Seeds aead store.key w next) : Recorded aead store initial file next ∧ Between w next := by
  cases seeds with
  | @seed records nonce content written =>
    refine ⟨⟨(fileAfter_snoc file w.changes (.seeded records content)).symm, ?_, ?_, ?_⟩, ?_⟩
    · intro before change within
      rcases List.prefix_concat_iff.mp within with last | old
      · obtain ⟨rfl, same⟩ := List.append_inj' last rfl
        cases same
        rw [registry_seeded]
        exact .client nonce written
      · exact recorded.whole before change old
    · simpa [List.filterMap_cons, Change.who?] using recorded.once
    · intro before who call seen further within
      rcases List.prefix_concat_iff.mp within with last | old
      · obtain ⟨-, same⟩ := List.append_inj' last rfl
        cases same
      · exact recorded.seen before who call seen further old
    · refine ⟨rfl, rfl, rfl, [.seeded records content], ?_, rfl⟩
      intro change member
      rw [List.mem_singleton.mp member]
      trivial

end Between

section Sections

variable {texts : GoTexts} {aead : Aead} {store : Store} {initial : List (Record String)}
  {file : Option Bytes} {who start : Nat} {call : StoreCall} {name : String}
  {records : List (Record String)} {w next : Directory}

abbrev Serves (aead : Aead) (store : Store) (initial : List (Record String)) (file : Option Bytes)
    (who : Nat) (call : StoreCall) (may : Directory → Directory → Prop) {A : Type}
    (post : Outcome ServiceError A → Directory → Prop) (p : StoreProg A) (w : Directory) : Prop :=
  Server.Guards (Directory.step who call) (Recorded aead store initial file) Between may post p w

/-- The thread has changed nothing. -/
structure Idle (who : Nat) (w : Directory) : Prop where
  unreplaced : Unreplaced who w
  clear : Clear who w

/-- The registry as it was after some number of changes, since the call. -/
structure Saw (initial : List (Record String)) (start count : Nat) (records : List (Record String))
    (w : Directory) : Prop where
  called : start ≤ count
  within : count ≤ w.changes.length
  records : records = version initial w.changes count

/-- A writer that has read the registry: only seeds have come since. -/
structure Loaded (initial : List (Record String)) (who start : Nat) (records : List (Record String))
    (w : Directory) : Prop where
  unreplaced : Unreplaced who w
  saw : Saw initial start w.seen records w
  seeds : ∀ change ∈ w.changes.drop w.seen, change.IsSeed

/-- Its temporary file, the only one. -/
structure Pending (initial : List (Record String)) (who start : Nat) (records : List (Record String))
    (name : String) (content : Bytes) (w : Directory) : Prop where
  loaded : Loaded initial who start records w
  own : w.temps name = some ⟨some who, content⟩
  only : ∀ other temp, w.temps other = some temp → temp.creator = some who →
    other = name ∨ other ∈ w.unremoved

/-- The change of a writer, to the registry that it has read. -/
def Replaced (initial : List (Record String)) (who start : Nat) (call : StoreCall)
    (records : List (Record String)) (w : Directory) : Prop :=
  ∃ before seen content, start ≤ seen ∧ seen ≤ before.length ∧
    before ++ [.replaced who call seen content] <+: w.changes ∧
    records = version initial before seen

theorem Idle.between (idle : Idle who w) (between : Between w next) : Idle who next :=
  ⟨idle.unreplaced.between between, idle.clear.between between⟩

theorem Saw.between {count : Nat} (saw : Saw initial start count records w)
    (between : Between w next) : Saw initial start count records next := by
  refine ⟨saw.called, saw.within.trans between.follows.length_le, ?_⟩
  rw [version_follows between.follows saw.within]
  exact saw.records

theorem Loaded.between (loaded : Loaded initial who start records w) (between : Between w next) :
    Loaded initial who start records next := by
  have later := between
  obtain ⟨-, seen, -, seeds, each, changes⟩ := later
  refine ⟨loaded.unreplaced.between between, ?_, ?_⟩
  · rw [seen]
    exact loaded.saw.between between
  · rw [seen, changes, List.drop_append_of_le_length loaded.saw.within]
    intro change member
    exact (List.mem_append.mp member).elim (loaded.seeds change) (each change)

theorem Loaded.of_same (loaded : Loaded initial who start records w)
    (changes : next.changes = w.changes) (seen : next.seen = w.seen) :
    Loaded initial who start records next := by
  obtain ⟨unreplaced, ⟨called, within, same⟩, seeds⟩ := loaded
  refine ⟨?_, ⟨?_, ?_, ?_⟩, ?_⟩
  · rwa [Unreplaced, changes]
  · rwa [seen]
  · rwa [seen, changes]
  · rwa [seen, changes]
  · rwa [seen, changes]

theorem Pending.between {content : Bytes} (pending : Pending initial who start records name content w)
    (between : Between w next) : Pending initial who start records name content next := by
  refine ⟨pending.loaded.between between, ?_, ?_⟩
  · rw [between.1]
    exact pending.own
  · rw [between.1, between.2.2.1]
    exact pending.only

theorem Replaced.between (replaced : Replaced initial who start call records w)
    (between : Between w next) : Replaced initial who start call records next := by
  obtain ⟨before, seen, content, called, within, own, same⟩ := replaced
  exact ⟨before, seen, content, called, within, own.trans between.follows, same⟩

theorem writes_refl (w : Directory) : Writes who w w :=
  ⟨fun _ _ found _ => found, List.Subset.refl _, .inl rfl⟩

theorem writes_putTemp (w : Directory) {temp : Option Temp}
    (own : ∀ known, temp = some known → known.creator = some who) :
    Writes who w (w.putTemp name temp) := by
  refine ⟨?_, List.Subset.refl _, .inl rfl⟩
  intro other known found foreign
  simp only [Directory.putTemp] at found
  split at found
  · exact absurd (own known found) foreign
  · exact found

theorem Pending.putTemp {content : Bytes} (pending : Pending initial who start records name content w)
    (further : Bytes) : Pending initial who start records name further
      (w.putTemp name (some ⟨some who, further⟩)) where
  loaded := pending.loaded.of_same rfl rfl
  own := by
    rw [Directory.putTemp]
    exact if_pos rfl
  only := by
    intro other temp found own
    simp only [Directory.putTemp] at found
    split at found
    · next same => exact .inl same
    · exact pending.only other temp found own

def TempOp.added : TempOp → Bytes
  | .write content => content
  | _ => []

theorem perform_fails {content : Bytes} (pending : Pending initial who start records name content w)
    (op : TempOp) {x : StoreChoice} {cause : String} (fault : x.fault = some cause) :
    (w.perform who call x name op).1 = .error cause ∧ Writes who w (w.perform who call x name op).2 ∧
      (w.perform who call x name op).2.file = w.file ∧
      (w.perform who call x name op).2.changes = w.changes ∧
      ∃ left, Pending initial who start records name left (w.perform who call x name op).2 := by
  have own := pending.own
  cases op with
  | write further =>
    simp only [Directory.perform, own, fault, true_and]
    refine ⟨writes_putTemp w ?_, rfl, rfl, _, pending.putTemp _⟩
    rintro known ⟨⟩
    rfl
  | _ =>
    simp only [Directory.perform, own, fault, true_and]
    exact ⟨writes_refl w, content, pending⟩

theorem perform_succeeds {content : Bytes} (pending : Pending initial who start records name content w)
    {op : TempOp} (keeps : op ≠ .rename) {x : StoreChoice} (fault : x.fault = none) :
    (w.perform who call x name op).1 = .ok () ∧ Writes who w (w.perform who call x name op).2 ∧
      (w.perform who call x name op).2.file = w.file ∧
      (w.perform who call x name op).2.changes = w.changes ∧
      Pending initial who start records name (content ++ op.added)
        (w.perform who call x name op).2 := by
  have own := pending.own
  cases op with
  | write further =>
    simp only [Directory.perform, own, fault, true_and, TempOp.added]
    refine ⟨writes_putTemp w ?_, rfl, rfl, pending.putTemp _⟩
    rintro known ⟨⟩
    rfl
  | rename => exact absurd rfl keeps
  | _ =>
    simp only [Directory.perform, own, fault, true_and, TempOp.added, List.append_nil]
    exact ⟨writes_refl w, pending⟩

theorem Pending.removed {content : Bytes} (pending : Pending initial who start records name content w) :
    Clear who (w.putTemp name none) := by
  intro other temp found own
  simp only [Directory.putTemp] at found
  split at found
  · cases found
  · next apart => exact (pending.only other temp found own).resolve_left apart

theorem Pending.unremoved {content : Bytes}
    (pending : Pending initial who start records name content w) :
    Clear who { w with unremoved := name :: w.unremoved } := by
  intro other temp found own
  rcases pending.only other temp found own with rfl | old
  · exact List.mem_cons_self
  · exact List.mem_cons_of_mem _ old

abbrev Fails {A : Type} (who : Nat) (returns : A → Directory → Prop) :
    Outcome ServiceError A → Directory → Prop :=
  Concludes returns fun _ => Idle who

theorem serves_removeTemp {content : Bytes}
    (pending : Pending initial who start records name content w) :
    Serves aead store initial file who call (Writes who)
      (Concludes (fun _ => Idle who) fun _ _ => False) (Store.removeTemp name) w := by
  intro w' later recorded x
  have pending := pending.between later
  rw [Directory.step]
  split
  · have idle : Idle who (w'.putTemp name none) := ⟨pending.loaded.unreplaced, pending.removed⟩
    refine ⟨recorded.of_same rfl rfl, writes_putTemp w' (fun _ known => by cases known), ?_⟩
    exact fun last later recorded => idle.between later
  · have idle : Idle who { w' with unremoved := name :: w'.unremoved } :=
      ⟨pending.loaded.unreplaced, pending.unremoved⟩
    refine ⟨recorded.of_same rfl rfl, ⟨fun _ _ found _ => found, List.subset_cons_self _ _, .inl rfl⟩, ?_⟩
    exact fun last later recorded => idle.between later

theorem serves_closeAndRemove {content : Bytes}
    (pending : Pending initial who start records name content w) :
    Serves aead store initial file who call (Writes who)
      (Concludes (fun _ => Idle who) fun _ _ => False) (Store.closeAndRemove name) w := by
  intro w' later recorded x
  have pending := pending.between later
  rw [Directory.step]
  cases fault : x.fault with
  | some cause =>
    obtain ⟨-, writes, same, changes, left, still⟩ := @perform_fails _ _ _ call _ _ _ _ pending .close x _ fault
    exact ⟨recorded.of_same same changes, writes, serves_removeTemp still⟩
  | none =>
    obtain ⟨-, writes, same, changes, still⟩ := @perform_succeeds _ _ _ call _ _ _ _ pending .close
      (fun same => by cases same) x fault
    exact ⟨recorded.of_same same changes, writes, serves_removeTemp still⟩

-- An error is returned after the cleaning up.
theorem serves_giveUp {returns : Unit → Directory → Prop} {cleanUp : StoreProg Unit}
    {error : ServiceError} (recorded : Recorded aead store initial file w)
    (cleans : Serves aead store initial file who call (Writes who)
      (Concludes (fun _ => Idle who) fun _ _ => False) cleanUp w) :
    Serves aead store initial file who call (Writes who) (Fails who returns)
      (cleanUp.bind fun _ => (.raise error : StoreProg Unit)) w := by
  refine cleans.bind between_refl recorded ?_ ?_
  · intro value w' recorded idle last later recorded
    exact idle.between later
  · intro error w' recorded impossible
    exact impossible.elim

-- A step of the save: its file is further, or it has ended with an error and without a change.
theorem serves_attempt {content : Bytes} (pending : Pending initial who start records name content w)
    {op : TempOp} (keeps : op ≠ .rename) {cleanUp : StoreProg Unit} {failure : String → ServiceError}
    (cleans : ∀ left w', Pending initial who start records name left w' →
      Serves aead store initial file who call (Writes who)
        (Concludes (fun _ => Idle who) fun _ _ => False) cleanUp w') :
    Serves aead store initial file who call (Writes who)
      (Fails who fun _ => Pending initial who start records name (content ++ op.added))
      (Store.attempt name op cleanUp failure) w := by
  intro w' later recorded x
  have pending := pending.between later
  rw [Directory.step]
  cases fault : x.fault with
  | some cause =>
    obtain ⟨failed, writes, same, changes, left, still⟩ :=
      @perform_fails _ _ _ call _ _ _ _ pending op x _ fault
    have kept := recorded.of_same same changes
    refine ⟨kept, writes, ?_⟩
    rw [failed]
    exact serves_giveUp kept (cleans left _ still)
  | none =>
    obtain ⟨done, writes, same, changes, further⟩ :=
      @perform_succeeds _ _ _ call _ _ _ _ pending op keeps x fault
    refine ⟨recorded.of_same same changes, writes, ?_⟩
    rw [done]
    intro last later recorded
    exact further.between later

/-- The file is whole, and that of an upsert. -/
structure Due (aead : Aead) (store : Store) (call : StoreCall) (records : List (Record String))
    (sealed : Bytes) : Prop where
  upserts : ∃ candidate, call = .upsert candidate
  whole : ∃ nonce : Nonce,
    sealRecords aead (call.apply records) store.key nonce.bytes = .ok sealed

theorem recorded_rename {sealed : Bytes} (due : Due aead store call records sealed)
    (pending : Pending initial who start records name sealed w)
    (recorded : Recorded aead store initial file w) :
    Recorded aead store initial file { w.putTemp name none with
      file := some sealed
      changes := w.changes ++ [.replaced who call w.seen sealed] } where
  file := (fileAfter_snoc file w.changes (.replaced who call w.seen sealed)).symm
  whole := by
    intro before change within
    rcases List.prefix_concat_iff.mp within with last | old
    · obtain ⟨rfl, same⟩ := List.append_inj' last rfl
      cases same
      obtain ⟨nonce, written⟩ := due.whole
      rw [registry_replaced, ← pending.loaded.saw.records]
      exact .service nonce written
    · exact recorded.whole before change old
  once := by
    rw [List.filterMap_append, List.nodup_append]
    refine ⟨recorded.once, List.nodup_singleton who, ?_⟩
    intro other earlier here own
    rw [List.mem_singleton.mp own]
    rintro rfl
    exact pending.loaded.unreplaced earlier
  seen := by
    intro before other made seen content within
    rcases List.prefix_concat_iff.mp within with last | old
    · obtain ⟨rfl, same⟩ := List.append_inj' last rfl
      cases same
      exact ⟨due.upserts, pending.loaded.saw.within, pending.loaded.seeds⟩
    · exact recorded.seen before other made seen content old

theorem serves_rename {sealed : Bytes} (due : Due aead store call records sealed)
    (pending : Pending initial who start records name sealed w) :
    Serves aead store initial file who call (Writes who)
      (Fails who fun _ w' => Replaced initial who start call records w' ∧ Clear who w')
      (Store.attempt name .rename (Store.removeTemp name) (.cannotReplace store.path)) w := by
  intro w' later recorded x
  have pending := pending.between later
  rw [Directory.step]
  cases fault : x.fault with
  | some cause =>
    obtain ⟨failed, writes, same, changes, left, still⟩ :=
      @perform_fails _ _ _ call _ _ _ _ pending .rename x _ fault
    have kept := recorded.of_same same changes
    refine ⟨kept, writes, ?_⟩
    rw [failed]
    exact serves_giveUp kept (serves_removeTemp still)
  | none =>
    have own := pending.own
    simp only [Directory.perform, own, fault]
    refine ⟨recorded_rename due pending recorded, ?_, ?_⟩
    · exact ⟨(writes_putTemp w' (fun _ known => by cases known)).1, List.Subset.refl _,
        .inr ⟨call, w'.seen, sealed, rfl⟩⟩
    · intro last later recorded
      have saw := pending.loaded.saw
      have clear : Clear who { w'.putTemp name none with
          file := some sealed
          changes := w'.changes ++ [.replaced who call w'.seen sealed] } := pending.removed
      exact ⟨Replaced.between ⟨w'.changes, w'.seen, sealed, saw.called, saw.within,
        List.prefix_refl _, saw.records⟩ later, clear.between later⟩

theorem serves_encryptFresh (clear : Clear who w) (loaded : Loaded initial who start records w)
    (plaintext : Bytes) :
    Serves aead store initial file who call (Writes who)
      (Fails who fun sealed w' => Clear who w' ∧ Loaded initial who start records w' ∧
        ∃ nonce : Nonce, encrypt aead plaintext store.key nonce.bytes = .ok sealed)
      (store.encryptFresh aead plaintext) w := by
  have idle : Idle who w := ⟨loaded.unreplaced, clear⟩
  rw [Store.encryptFresh]
  split
  · exact fun last later recorded => idle.between later
  · next strong =>
    intro w' later recorded x
    refine ⟨recorded, writes_refl w', ?_⟩
    rw [Directory.step]
    cases x.fault with
    | some cause => exact fun last further recorded => idle.between (later.trans further)
    | none =>
      have made : encrypt aead plaintext store.key x.nonce.bytes =
          .ok (payload aead store.key x.nonce.bytes plaintext) := if_neg strong
      simp only [Prog.bind, made, Prog.ofExcept]
      intro last further recorded
      have passed := later.trans further
      exact ⟨clear.between passed, loaded.between passed, x.nonce, made⟩

-- The steps of the save, from the file that it creates.
theorem serves_temp {sealed : Bytes} (due : Due aead store call records sealed)
    (recorded : Recorded aead store initial file w)
    (pending : Pending initial who start records name [] w) :
    Serves aead store initial file who call (Writes who)
      (Fails who fun _ w' => Replaced initial who start call records w' ∧ Clear who w')
      (do
        Store.attempt name (.write sealed) (Store.closeAndRemove name) .cannotWrite
        Store.attempt name .sync (Store.closeAndRemove name) .cannotFlush
        Store.attempt name .close (Store.removeTemp name) .cannotClose
        Store.attempt name (.chmod 0o660) (Store.removeTemp name) .cannotRestrict
        Store.attempt name .rename (Store.removeTemp name) (.cannotReplace store.path)) w := by
  have closes : ∀ left w', Pending initial who start records name left w' →
      Serves aead store initial file who call (Writes who)
        (Concludes (fun _ => Idle who) fun _ _ => False) (Store.closeAndRemove name) w' :=
    fun _ _ still => serves_closeAndRemove still
  have removes : ∀ left w', Pending initial who start records name left w' →
      Serves aead store initial file who call (Writes who)
        (Concludes (fun _ => Idle who) fun _ _ => False) (Store.removeTemp name) w' :=
    fun _ _ still => serves_removeTemp still
  refine (serves_attempt pending (fun same => by cases same) closes).follow between_refl recorded ?_
  intro _ w recorded pending
  refine (serves_attempt pending (fun same => by cases same) closes).follow between_refl recorded ?_
  intro _ w recorded pending
  refine (serves_attempt pending (fun same => by cases same) removes).follow between_refl recorded ?_
  intro _ w recorded pending
  refine (serves_attempt pending (fun same => by cases same) removes).follow between_refl recorded ?_
  intro _ w recorded pending
  simp only [TempOp.added, List.nil_append, List.append_nil] at pending
  exact serves_rename due pending

theorem pending_create (clear : Clear who w) (loaded : Loaded initial who start records w)
    (name : String) : Pending initial who start records name []
      (w.putTemp name (some ⟨some who, []⟩)) where
  loaded := loaded.of_same rfl rfl
  own := if_pos rfl
  only := by
    intro other temp found own
    simp only [Directory.putTemp] at found
    split at found
    · next same => exact .inl same
    · exact .inr (clear other temp found own)

theorem serves_saveLocked (recorded : Recorded aead store initial file w) (clear : Clear who w)
    (loaded : Loaded initial who start records w)
    (upserts : ∃ candidate, call = .upsert candidate) :
    Serves aead store initial file who call (Writes who)
      (Fails who fun _ w' => Replaced initial who start call records w' ∧ Clear who w')
      (store.saveLocked aead (call.apply records)) w := by
  refine (serves_encryptFresh clear loaded (marshalIndent (call.apply records))).follow between_refl
    recorded ?_
  rintro sealed middle recorded ⟨clear, loaded, nonce, made⟩ w' later recorded x
  have clear := clear.between later
  have loaded := loaded.between later
  have idle : Idle who w' := ⟨loaded.unreplaced, clear⟩
  rw [Directory.step]
  cases x.fault with
  | some cause =>
    exact ⟨recorded, writes_refl w', fun last further recorded => idle.between further⟩
  | none =>
    cases known : w'.temps x.name with
    | some temp =>
      exact ⟨recorded, writes_refl w', fun last further recorded => idle.between further⟩
    | none =>
      have pending := pending_create clear loaded x.name
      have kept : Recorded aead store initial file (w'.putTemp x.name (some ⟨some who, []⟩)) :=
        recorded.of_same rfl rfl
      refine ⟨kept, writes_putTemp w' ?_, serves_temp ⟨upserts, nonce, made⟩ kept pending⟩
      rintro known ⟨⟩
      rfl

def noted (call : StoreCall) (w : Directory) : Directory :=
  if call.mode = .exclusive then { w with seen := w.changes.length } else w

theorem recorded_noted (recorded : Recorded aead store initial file w) (call : StoreCall) :
    Recorded aead store initial file (noted call w) := by
  unfold noted
  split
  · exact recorded.of_same rfl rfl
  · exact recorded

theorem serves_loadLocked (opens : aead.Opens) (tagged : aead.Tagged)
    (loads : loadRecords texts aead store.key file = .ok initial)
    {may : Directory → Directory → Prop} (allowed : ∀ w, may w (noted call w))
    {post : Outcome ServiceError (List (Record String)) → Directory → Prop}
    (reads : ∀ w' last, Between w w' → Between (noted call w') last →
      post (.returned (registry initial w'.changes)) last)
    (fails : ∀ w' last cause, Between w w' → Between (noted call w') last →
      post (.raised (.cannotRead store.path cause)) last) :
    Serves aead store initial file who call may post (store.loadLocked texts aead) w := by
  intro w' later recorded x
  refine ⟨recorded_noted recorded call, allowed w', ?_⟩
  have known := recorded_loads opens tagged loads recorded
  cases fault : x.fault with
  | some cause =>
    rw [Directory.step, fault]
    exact fun last further recorded => fails w' last cause later further
  | none =>
    have taken : Directory.step who call x .readFile w' =
        (w'.file.elim (.error .notExist) .ok, noted call w') := by
      rw [Directory.step, fault]
      rfl
    have returned := fun last => reads w' last later
    rw [taken]
    generalize noted call w' = after at returned ⊢
    cases content : w'.file with
    | none =>
      rw [content] at known
      rw [← Except.ok.inj known] at returned
      exact fun last further recorded => returned last further
    | some blob =>
      rw [content, loadRecords] at known
      simp only [Option.elim, Prog.bind, known, Prog.ofExcept]
      exact fun last further recorded => returned last further

-- A writer notes what it has read.
theorem loaded_noted {candidate : Record String} (idle : Idle who w) (called : start ≤ w.changes.length) :
    Loaded initial who start (registry initial w.changes) (noted (.upsert candidate) w) ∧
      Clear who (noted (.upsert candidate) w) := by
  refine ⟨⟨idle.unreplaced, ⟨called, Nat.le_refl _, rfl⟩, ?_⟩, idle.clear⟩
  intro change member
  have none : w.changes.drop w.changes.length = [] := List.drop_length
  have member : change ∈ w.changes.drop w.changes.length := member
  rw [none] at member
  cases member

theorem writes_noted (w : Directory) : Writes who w (noted call w) := by
  unfold noted
  split
  · exact ⟨fun _ _ found _ => found, List.Subset.refl _, .inl rfl⟩
  · exact writes_refl w

theorem serves_upsert (opens : aead.Opens) (tagged : aead.Tagged)
    (loads : loadRecords texts aead store.key file = .ok initial) {candidate : Record String}
    (recorded : Recorded aead store initial file w) (idle : Idle who w)
    (called : start ≤ w.changes.length) :
    Serves aead store initial file who (.upsert candidate) (Writes who)
      (Fails who fun answer left => ∃ records, answer = .records (upsertInto candidate records) ∧
        Replaced initial who start (.upsert candidate) records left ∧ Clear who left)
      (store.upsert texts aead candidate) w := by
  have loaded : Serves aead store initial file who (.upsert candidate) (Writes who)
      (Fails who fun records w' => Clear who w' ∧ Loaded initial who start records w')
      (store.loadLocked texts aead) w := by
    refine serves_loadLocked opens tagged loads writes_noted ?_ ?_
    · intro w' last later further
      obtain ⟨loaded, clear⟩ := @loaded_noted initial who start w' candidate (idle.between later)
        (called.trans later.follows.length_le)
      exact ⟨clear.between further, loaded.between further⟩
    · intro w' last cause later further
      have noted : Idle who (noted (.upsert candidate) w') :=
        ⟨(idle.between later).unreplaced, (idle.between later).clear⟩
      exact noted.between further
  refine loaded.follow between_refl recorded ?_
  rintro records w' recorded ⟨clear, loaded⟩
  refine (@serves_saveLocked aead store initial file who start (.upsert candidate) records w' recorded
    clear loaded ⟨candidate, rfl⟩).follow between_refl recorded ?_
  rintro _ left recorded ⟨replaced, clear⟩ last later recorded
  exact ⟨records, rfl, replaced.between later, clear.between later⟩

theorem serves_load (opens : aead.Opens) (tagged : aead.Tagged)
    (loads : loadRecords texts aead store.key file = .ok initial)
    (recorded : Recorded aead store initial file w) (idle : Idle who w)
    (called : start ≤ w.changes.length) :
    Serves aead store initial file who .load Between
      (Concludes
        (fun answer left => Idle who left ∧ ∃ count records, answer = .records records ∧
          Saw initial start count records left)
        fun error left => Idle who left ∧ ∃ cause, error = .cannotRead store.path cause)
      (store.load texts aead) w := by
  have loaded : Serves aead store initial file who .load Between
      (Concludes (fun records left => Idle who left ∧ ∃ count, Saw initial start count records left)
        fun error left => Idle who left ∧ ∃ cause, error = .cannotRead store.path cause)
      (store.loadLocked texts aead) w := by
    refine serves_loadLocked opens tagged loads between_refl ?_ ?_
    · intro w' last later further
      have saw : Saw initial start w'.changes.length (registry initial w'.changes) w' :=
        ⟨called.trans later.follows.length_le, Nat.le_refl _, rfl⟩
      exact ⟨(idle.between later).between further, _, saw.between further⟩
    · intro w' last cause later further
      exact ⟨(idle.between later).between further, cause, rfl⟩
  refine loaded.follow between_refl recorded ?_
  rintro records w' recorded ⟨idle, count, saw⟩ last later recorded
  exact ⟨idle.between later, count, records, rfl, saw.between later⟩

theorem serves_rawCiphertext (idle : Idle who w) (called : start ≤ w.changes.length) :
    Serves aead store initial file who .rawCiphertext Between
      (Concludes
        (fun answer left => Idle who left ∧ ∃ count, start ≤ count ∧ count ≤ left.changes.length ∧
          answer = .blob ((fileAfter file (left.changes.take count)).getD []))
        fun error left => Idle who left ∧ ∃ cause, error = .cannotRead store.path cause)
      store.rawCiphertext w := by
  intro w' later recorded x
  refine ⟨recorded, between_refl w', ?_⟩
  rw [Directory.step]
  cases fault : x.fault with
  | some cause =>
    exact fun last further recorded => ⟨(idle.between later).between further, cause, rfl⟩
  | none =>
    have reads : ∀ last, Between w' last →
        (fileAfter file (last.changes.take w'.changes.length)) = w'.file := by
      intro last further
      obtain ⟨seeds, changes⟩ := further.follows
      rw [← changes, List.take_left, recorded.file]
    have whole : ∀ last, Between w' last → Idle who last ∧ ∃ count, start ≤ count ∧
        count ≤ last.changes.length ∧ StoreAnswer.blob (w'.file.getD []) =
          .blob ((fileAfter file (last.changes.take count)).getD []) := by
      intro last further
      refine ⟨(idle.between later).between further, w'.changes.length,
        called.trans later.follows.length_le, further.follows.length_le, ?_⟩
      rw [reads last further]
    cases content : w'.file with
    | none =>
      rw [content] at whole
      exact fun last further recorded => whole last further
    | some blob =>
      rw [content] at whole
      exact fun last further recorded => whole last further

end Sections

end VmDeploy.Inventory
