import VmDeploy.Inventory.Sections
import VmDeploy.Inventory.Upsert

/-! What the datastore holds, and what each call has been told, in every run of the service. -/

set_option autoImplicit false

open Effects

namespace VmDeploy.Inventory

section Runs

variable {R : Type} {texts : GoTexts} {aead : Aead} {store : Store} {call : R → StoreCall}
  {outside : Directory → Directory → Prop} {initial : List (Record String)} {file : Option Bytes}
  {who other : Nat} {w next : Directory}

theorem Writes.follows (writes : Writes who w next) : w.changes <+: next.changes := by
  rcases writes.2.2 with same | ⟨call, seen, content, more⟩
  · exact same ▸ List.prefix_refl _
  · exact ⟨_, more.symm⟩

theorem Unreplaced.writes (unreplaced : Unreplaced who w) (apart : who ≠ other)
    (writes : Writes other w next) : Unreplaced who next := by
  rcases writes.2.2 with same | ⟨call, seen, content, more⟩
  · rwa [Unreplaced, same]
  · rw [Unreplaced, more, List.filterMap_append, List.mem_append]
    rintro (before | here)
    · exact unreplaced before
    · exact apart (List.mem_singleton.mp here)

theorem Clear.writes (clear : Clear who w) (apart : who ≠ other) (writes : Writes other w next) :
    Clear who next := by
  intro name temp found own
  refine writes.2.1 (clear name temp (writes.1 name temp found ?_) own)
  rw [own]
  exact fun same => apart (Option.some.inj same)

theorem Answered.mono {called left now later : Directory} {made : StoreCall}
    {outcome : Outcome ServiceError StoreAnswer}
    (answered : Answered store initial file who called left now made outcome)
    (keeps : Unreplaced who now → Unreplaced who later) :
    Answered store initial file who called left later made outcome := by
  cases answered with
  | upserted since within own => exact .upserted since within own
  | refused error unreplaced => exact .refused error (keeps unreplaced)
  | loaded since within unreplaced => exact .loaded since within (keeps unreplaced)
  | read since within unreplaced => exact .read since within (keeps unreplaced)
  | unread cause reads unreplaced => exact .unread cause reads (keeps unreplaced)

theorem store_lawful (opens : aead.Opens) (tagged : aead.Tagged)
    (loads : loadRecords texts aead store.key file = .ok initial)
    (seeds : ∀ w w', outside w w' → Seeds aead store.key w w') :
    (storeServer texts aead store call outside).Lawful
      (storeContract aead store initial file call) where
  refl := between_refl
  trans _ _ _ := Between.trans
  follows _ := List.prefix_refl _
  later _ _ _ := List.IsPrefix.trans
  since_between _ _ := Between.follows
  since_writes _ _ _ := Writes.follows
  outside _ _ changed recorded := recorded_seeds recorded (seeds _ _ changed)
  fresh_between _ _ _ between fresh := ⟨fresh.1.between between, fresh.2.between between⟩
  fresh_writes _ _ _ _ apart writes fresh :=
    ⟨fresh.1.writes apart writes, fresh.2.writes apart writes⟩
  done_between _ _ _ _ _ _ _ between done :=
    ⟨done.1.trans between.follows, done.2.1.between between,
      done.2.2.mono fun unreplaced => unreplaced.between between⟩
  done_writes _ _ _ _ _ _ _ _ apart writes done :=
    ⟨done.1.trans writes.follows, done.2.1.writes apart writes,
      done.2.2.mono fun unreplaced => unreplaced.writes apart writes⟩
  begins := by
    intro who request called w recorded fresh since
    have idle : Idle who w := ⟨fresh.1, fresh.2⟩
    have early := since.length_le
    unfold Server.Fulfils
    simp only [storeServer, storeContract]
    cases call request with
    | upsert candidate =>
      refine (serves_upsert opens tagged loads recorded idle early).concluded ?_ ?_
      · rintro answer left recorded ⟨records, rfl, replaced, clear⟩
        obtain ⟨before, seen, content, called, within, own, rfl⟩ := replaced
        exact ⟨List.prefix_refl _, clear, .upserted called within own⟩
      · intro error left recorded idle
        exact ⟨List.prefix_refl _, idle.clear, .refused error idle.unreplaced⟩
    | load =>
      refine (serves_load opens tagged loads recorded idle early).concluded ?_ ?_
      · rintro answer left recorded ⟨idle, count, records, rfl, saw⟩
        obtain ⟨called, within, rfl⟩ := saw
        exact ⟨List.prefix_refl _, idle.clear, .loaded called within idle.unreplaced⟩
      · rintro error left recorded ⟨idle, cause, rfl⟩
        exact ⟨List.prefix_refl _, idle.clear, .unread cause rfl idle.unreplaced⟩
    | rawCiphertext =>
      refine (serves_rawCiphertext idle early).concluded ?_ ?_
      · rintro answer left recorded ⟨idle, count, called, within, rfl⟩
        exact ⟨List.prefix_refl _, idle.clear, .read called within idle.unreplaced⟩
      · rintro error left recorded ⟨idle, cause, rfl⟩
        exact ⟨List.prefix_refl _, idle.clear, .unread cause rfl idle.unreplaced⟩

theorem eval_loadLocked {A : Type} {records : List (Record String)} {x : StoreChoice}
    (whole : x.fault = none) (loaded : loadRecords texts aead store.key w.file = .ok records)
    (who : Nat) (made : StoreCall) (rest : List (Record String) → StoreProg A)
    (script : List StoreChoice) :
    (store.loadLocked texts aead >>= rest).eval (Directory.step who made) w (x :: script) =
      (rest records).eval (Directory.step who made) (noted made w) script := by
  have taken : Directory.step who made x .readFile w =
      (w.file.elim (.error .notExist) .ok, noted made w) := by
    rw [Directory.step, whole]
    rfl
  cases content : w.file with
  | none =>
    rw [content] at loaded taken
    cases loaded
    simp only [Store.loadLocked, onStore, Prog.perform, Prog.bind_eq, Prog.bind, Prog.eval, taken,
      Option.elim, Prog.pure_eq]
  | some raw =>
    rw [content] at taken
    rw [content, loadRecords] at loaded
    simp only [Store.loadLocked, onStore, Prog.perform, Prog.bind_eq, Prog.bind, Prog.eval, taken,
      Option.elim, loaded, Prog.ofExcept]

theorem eval_load {records : List (Record String)} {x : StoreChoice} (whole : x.fault = none)
    (loaded : loadRecords texts aead store.key w.file = .ok records) (who : Nat) :
    (store.load texts aead).eval (Directory.step who .load) w [x] = (.returned (.records records), w) :=
  eval_loadLocked whole loaded who .load _ []

theorem eval_rawCiphertext {x : StoreChoice} (whole : x.fault = none) (who : Nat) :
    store.rawCiphertext.eval (Directory.step who .rawCiphertext) w [x] =
      (.returned (.blob (w.file.getD [])), w) := by
  have shared : ¬ StoreCall.rawCiphertext.mode = .exclusive := fun same => by cases same
  cases content : w.file <;>
    simp only [Store.rawCiphertext, onStore, Prog.perform, Prog.bind_eq, Prog.bind, Prog.eval,
      Directory.step, whole, content, Option.elim, Prog.pure_eq, Option.getD_none, Option.getD_some,
      if_neg shared]

theorem eval_saveLocked {records : List (Record String)} {blob : Bytes} {x : StoreChoice}
    (whole : x.fault = none) (free : w.temps x.name = none)
    (sealed : sealRecords aead records store.key x.nonce.bytes = .ok blob) (who : Nat)
    (made : StoreCall) :
    ∃ left, (store.saveLocked aead records).eval (Directory.step who made) w (List.replicate 7 x) =
        (.returned (), left) ∧ left.file = some blob ∧
      left.changes = w.changes ++ [.replaced who made w.seen blob] ∧
      left.unremoved = w.unremoved := by
  have strong := strong_of_sealed sealed
  rw [sealRecords] at sealed
  simp [Store.saveLocked, Store.encryptFresh, strong, onStore, Prog.perform, Prog.bind, Prog.eval,
    Directory.step, whole, sealed, Prog.ofExcept, free, Store.attempt, Directory.perform,
    Directory.putTemp]

-- An upsert leaves the file that a registration is said to write.
theorem eval_upsert {candidate : Record String} {records : List (Record String)} {blob : Bytes}
    {x : StoreChoice} (whole : x.fault = none) (free : w.temps x.name = none)
    (written : upsertFile texts aead store.key candidate x.nonce.bytes w.file = .ok (records, blob))
    (who : Nat) :
    ∃ left, (store.upsert texts aead candidate).eval (Directory.step who (.upsert candidate)) w
        (List.replicate 8 x) = (.returned (.records records), left) ∧ left.file = some blob ∧
      left.changes = w.changes ++ [.replaced who (.upsert candidate) w.changes.length blob] ∧
      left.unremoved = w.unremoved := by
  unfold upsertFile at written
  cases loaded : loadRecords texts aead store.key w.file with
  | error failure =>
    rw [loaded] at written
    cases written
  | ok before =>
    rw [loaded] at written
    cases sealed : sealRecords aead (upsertInto candidate before) store.key x.nonce.bytes with
    | error failure =>
      simp only [bind, Except.bind, sealed] at written
      cases written
    | ok content =>
      simp only [bind, Except.bind, sealed] at written
      cases written
      obtain ⟨left, saves, file, kept⟩ := @eval_saveLocked aead store (noted (.upsert candidate) w) _
        _ x whole free sealed who (.upsert candidate)
      refine ⟨left, ?_, file, kept⟩
      rw [Store.upsert, List.replicate_succ, eval_loadLocked whole loaded]
      exact Server.eval_bind_done saves _

def Directory.Untouched (file : Option Bytes) (directory : Directory) : Prop :=
  directory.file = file ∧ directory.changes = [] ∧
    ∀ name temp, directory.temps name = some temp → temp.creator = none

def exampleStore : Store :=
  ⟨"/opt/inventory/inventory.enc", exampleKey⟩

def exampleStart : Directory :=
  ⟨none, fun _ => none, [], 0, []⟩

theorem example_nonce_sized : exampleNonce.length = nonceBytes :=
  rfl

def exampleChoice : StoreChoice :=
  ⟨none, "/opt/inventory/.inventory-1.tmp", ⟨exampleNonce, example_nonce_sized⟩, 0⟩

theorem example_untouched : exampleStart.Untouched none :=
  ⟨rfl, rfl, fun _ _ found => by cases found⟩

abbrev exampleServer (outside : Directory → Directory → Prop) :
    Server storeSignature ServiceError StoreAnswer StoreCall Directory StoreChoice :=
  storeServer exampleTexts exampleAead exampleStore id outside

def exampleDone (left : Directory) :
    Pool storeSignature ServiceError StoreAnswer StoreCall Directory :=
  ⟨[⟨.upsert exampleRecord, exampleStart, .ended (.returned (.records [exampleRecord])) left⟩], left⟩

theorem example_upsert_served {aead : Aead} (opens : aead.Opens) (tagged : aead.Tagged)
    (outside : Directory → Directory → Prop) :
    ∃ left, (storeServer exampleTexts aead exampleStore id outside).Reached exampleStart
      (exampleDone left) ∧ left.unremoved = [] := by
  obtain ⟨blob, sealed, -⟩ := @sealRecords_loads exampleTexts aead exampleKey exampleNonce
    opens tagged rfl rfl [exampleRecord]
  have written : upsertFile exampleTexts aead exampleKey exampleRecord exampleNonce none =
      .ok ([exampleRecord], blob) := by
    rw [upsertFile, loadRecords]
    simp only [bind, Except.bind, upsertInto, sealed]
  obtain ⟨left, runs, -, -, unremoved⟩ := @eval_upsert exampleTexts aead exampleStore exampleStart
    exampleRecord [exampleRecord] blob exampleChoice rfl rfl written 0
  refine ⟨left, Server.Reached.later .start ?_, unremoved⟩
  exact Server.serve_alone (fun _ member => by cases member) runs (fun same => by cases same)

theorem recorded_untouched (untouched : w.Untouched file) : Recorded aead store initial file w := by
  have none : ∀ (before : List Change) change, ¬ before ++ [change] <+: w.changes := by
    intro before change within
    have short := within.length_le
    rw [untouched.2.1, List.length_append] at short
    cases before <;> cases short
  constructor
  · rw [untouched.2.1]
    exact untouched.1
  · exact fun before change within => absurd within (none before change)
  · rw [untouched.2.1]
    exact List.nodup_nil
  · exact fun before who call seen content within => absurd within (none before _)

theorem step_changes (who : Nat) (made : StoreCall) (x : StoreChoice) (op : StoreOp) (w : Directory) :
    (Directory.step who made x op w).2.changes = w.changes ∨ ∃ seen content,
      (Directory.step who made x op w).2.changes = w.changes ++ [.replaced who made seen content] := by
  cases op with
  | readFile =>
    simp only [Directory.step]
    split <;> exact .inl rfl
  | readNonce => exact .inl rfl
  | createTemp pattern =>
    simp only [Directory.step]
    split <;> exact .inl rfl
  | temp name op =>
    simp only [Directory.step, Directory.perform]
    split
    · exact .inl rfl
    · exact .inl rfl
    · exact .inl rfl
    · exact .inr ⟨_, _, rfl⟩
    · exact .inl rfl
    · exact .inl rfl
  | remove name =>
    simp only [Directory.step]
    split <;> exact .inl rfl

/-- Every change but for the seeds is that of a request, by the thread that serves it. -/
def Accounted (call : R → StoreCall)
    (pool : Pool storeSignature ServiceError StoreAnswer R Directory) : Prop :=
  ∀ who made seen content, .replaced who made seen content ∈ pool.world.changes →
    ∃ thread, pool.threads[who]? = some thread ∧ made = call thread.request

section Pools

variable {start : Directory} {pool last : Pool storeSignature ServiceError StoreAnswer R Directory}

theorem accounted_put {thread : Thread storeSignature ServiceError StoreAnswer R Directory}
    {phase : Phase storeSignature ServiceError StoreAnswer Directory} {world : Directory}
    (accounted : Accounted call pool) (there : pool.threads[who]? = some thread)
    (changes : world.changes = pool.world.changes ∨ ∃ seen content,
      world.changes = pool.world.changes ++ [.replaced who (call thread.request) seen content]) :
    Accounted call (pool.put who thread phase world) := by
  intro other made seen content member
  have known : .replaced other made seen content ∈ pool.world.changes ∨
      other = who ∧ made = call thread.request := by
    rcases changes with same | ⟨missed, further, more⟩
    · exact .inl (same ▸ member)
    · have member : .replaced other made seen content ∈ world.changes := member
      rw [more, List.mem_append, List.mem_singleton] at member
      rcases member with old | new
      · exact .inl old
      · cases new
        exact .inr ⟨rfl, rfl⟩
  rw [Server.threads_put there]
  split
  · next same =>
    refine ⟨_, rfl, ?_⟩
    rcases known with old | ⟨-, own⟩
    · obtain ⟨known, found, own⟩ := accounted other made seen content old
      rw [← same, there] at found
      cases found
      exact own
    · exact own
  · next apart =>
    rcases known with old | ⟨here, -⟩
    · exact accounted other made seen content old
    · exact absurd here.symm apart

theorem accounted_moves (accounted : Accounted call pool)
    (seeds : ∀ w w', outside w w' → Seeds aead store.key w w')
    (moves : (storeServer texts aead store call outside).Moves pool last) : Accounted call last := by
  cases moves with
  | call request =>
    intro who made seen content member
    obtain ⟨thread, found, own⟩ := accounted who made seen content member
    refine ⟨thread, ?_, own⟩
    rw [List.getElem?_append_left (List.getElem?_eq_some_iff.mp found).1]
    exact found
  | turn turn =>
    cases turn with
    | enter there => exact accounted_put accounted there (.inl rfl)
    | act x there => exact accounted_put accounted there (step_changes _ _ x _ _)
    | leave there => exact accounted_put accounted there (.inl rfl)
  | stop =>
    intro who made seen content member
    obtain ⟨thread, found, own⟩ := accounted who made seen content member
    refine ⟨thread.stop, ?_, ?_⟩
    · rw [List.getElem?_map, found]
      rfl
    · rw [own, Thread.stop]
      split <;> rfl
  | outside changed =>
    intro who made seen content member
    cases seeds _ _ changed with
    | seed written =>
      rcases List.mem_append.mp member with old | new
      · exact accounted who made seen content old
      · cases List.mem_singleton.mp new

theorem accounted_reached (untouched : start.Untouched file)
    (seeds : ∀ w w', outside w w' → Seeds aead store.key w w')
    (reached : (storeServer texts aead store call outside).Reached start pool) :
    Accounted call pool := by
  induction reached with
  | start =>
    intro who made seen content member
    rw [untouched.2.1] at member
    cases member
  | next _ moves accounted => exact accounted_moves accounted seeds moves

theorem store_kept (opens : aead.Opens) (tagged : aead.Tagged)
    (loads : loadRecords texts aead store.key file = .ok initial) (untouched : start.Untouched file)
    (seeds : ∀ w w', outside w w' → Seeds aead store.key w w')
    (reached : (storeServer texts aead store call outside).Reached start pool) :
    (storeServer texts aead store call outside).Kept
      (storeContract aead store initial file call) pool := by
  refine Server.kept_reached (store_lawful opens tagged loads seeds) (recorded_untouched untouched) ?_
    reached
  intro who
  constructor
  · rw [Unreplaced, untouched.2.1]
    exact List.not_mem_nil
  · intro name temp found own
    rw [untouched.2.2 name temp found] at own
    cases own

theorem unseeded_reached (untouched : start.Untouched file)
    (reached : (storeServer texts aead store call Alone).Reached start pool) :
    ∀ change ∈ pool.world.changes, ¬ change.IsSeed := by
  induction reached with
  | start =>
    rw [untouched.2.1]
    exact fun change member => absurd member List.not_mem_nil
  | @next pool last _ moves ih =>
    have grows : last.world.changes = pool.world.changes ∨ ∃ who made seen content,
        last.world.changes = pool.world.changes ++ [.replaced who made seen content] := by
      cases moves with
      | call request => exact .inl rfl
      | turn turn =>
        cases turn with
        | enter => exact .inl rfl
        | @act who thread op rest x there phase =>
          exact (step_changes who (call thread.request) x op pool.world).imp_right
            fun more => ⟨who, call thread.request, more⟩
        | leave => exact .inl rfl
      | stop => exact .inl rfl
      | outside impossible => exact impossible.elim
    rcases grows with same | ⟨who, made, seen, content, more⟩
    · rwa [same]
    · rw [more]
      intro change member
      rcases List.mem_append.mp member with old | new
      · exact ih change old
      · rw [List.mem_singleton.mp new]
        exact id

theorem registryAfter_snoc (changes : List Change) (change : Change) :
    registryAfter initial (changes ++ [change]) = change.apply (registryAfter initial changes) := by
  rw [registryAfter, List.foldl_append]
  rfl

-- Without seeds each upsert has seen every change before its own.
theorem seen_alone (recorded : Recorded aead store initial file w)
    (unseeded : ∀ change ∈ w.changes, ¬ change.IsSeed) {before : List Change} {made : StoreCall}
    {seen : Nat} {content : Bytes}
    (own : before ++ [.replaced who made seen content] <+: w.changes) : seen = before.length := by
  obtain ⟨-, early, missed⟩ := recorded.seen before who made seen content own
  have none : before.drop seen = [] := by
    refine List.eq_nil_iff_forall_not_mem.mpr ?_
    intro change member
    have inside := own.subset (List.mem_append_left _ (List.mem_of_mem_drop member))
    exact unseeded change inside (missed change member)
  exact Nat.le_antisymm early (List.drop_eq_nil_iff.mp none)

theorem registry_alone (recorded : Recorded aead store initial file w)
    (unseeded : ∀ change ∈ w.changes, ¬ change.IsSeed) {changes : List Change}
    (within : changes <+: w.changes) : registry initial changes = registryAfter initial changes := by
  induction changes using List.reverseRecOn with
  | nil => rfl
  | append_singleton changes change ih =>
    have before : registry initial changes = registryAfter initial changes :=
      ih ((List.prefix_append changes [change]).trans within)
    have own := unseeded change (within.subset (List.mem_append_right _ List.mem_cons_self))
    cases change with
    | seeded records content => exact absurd trivial own
    | replaced who made seen content =>
      have last := seen_alone recorded unseeded within
      rw [registry_replaced, last, registryAfter_snoc, ← before]
      rfl

/-- What a call is told: an upsert the registry that its own change has left, and a read the
registry or the file of a moment of the call. -/
inductive Told (initial : List (Record String)) (store : Store) (file : Option Bytes) (who : Nat)
    (called left now : Directory) : StoreCall → Outcome ServiceError StoreAnswer → Prop where
  | upserted {candidate : Record String} {before : List Change} {content : Bytes} :
      called.changes <+: before →
      before ++ [.replaced who (.upsert candidate) before.length content] <+: left.changes →
      Told initial store file who called left now (.upsert candidate)
        (.returned (.records (upsertInto candidate (registryAfter initial before))))
  | refused {candidate : Record String} (error : ServiceError) : Unreplaced who now →
      Told initial store file who called left now (.upsert candidate) (.raised error)
  | loaded {moment : List Change} : called.changes <+: moment → moment <+: left.changes →
      Unreplaced who now → Told initial store file who called left now .load
        (.returned (.records (registryAfter initial moment)))
  | read {moment : List Change} : called.changes <+: moment → moment <+: left.changes →
      Unreplaced who now → Told initial store file who called left now .rawCiphertext
        (.returned (.blob ((fileAfter file moment).getD [])))
  | unread {made : StoreCall} (cause : String) : made.mode = .shared → Unreplaced who now →
      Told initial store file who called left now made (.raised (.cannotRead store.path cause))

theorem told_alone (recorded : Recorded aead store initial file w)
    (unseeded : ∀ change ∈ w.changes, ¬ change.IsSeed) {called left now : Directory}
    {made : StoreCall} {outcome : Outcome ServiceError StoreAnswer}
    (since : called.changes <+: left.changes) (shown : left.changes <+: w.changes)
    (answered : Answered store initial file who called left now made outcome) :
    Told initial store file who called left now made outcome := by
  have moment : ∀ {count : Nat}, called.changes.length ≤ count →
      called.changes <+: left.changes.take count := by
    intro count early
    exact List.prefix_of_prefix_length_le since (List.take_prefix _ _)
      (by rw [List.length_take]; exact Nat.le_min.mpr ⟨early, since.length_le⟩)
  cases answered with
  | @upserted candidate before seen content early within own =>
    obtain rfl := seen_alone recorded unseeded (own.trans shown)
    have inside : before <+: w.changes := (List.prefix_append _ _).trans (own.trans shown)
    have same : version initial before before.length = registryAfter initial before :=
      registry_alone recorded unseeded inside
    rw [same]
    refine .upserted ?_ own
    exact List.prefix_of_prefix_length_le since ((List.prefix_append _ _).trans own) early
  | refused error unreplaced => exact .refused error unreplaced
  | @loaded count early within unreplaced =>
    rw [version_take within,
      registry_alone recorded unseeded ((List.take_prefix _ _).trans shown)]
    exact .loaded (moment early) (List.take_prefix _ _) unreplaced
  | read early within unreplaced => exact .read (moment early) (List.take_prefix _ _) unreplaced
  | unread cause reads unreplaced => exact .unread cause reads unreplaced

theorem changes_accounted (recorded : Recorded aead store initial file pool.world)
    (unseeded : ∀ change ∈ pool.world.changes, ¬ change.IsSeed) (accounted : Accounted call pool) :
    ∀ change ∈ pool.world.changes, ∃ who thread candidate seen content,
      change = .replaced who (.upsert candidate) seen content ∧ pool.threads[who]? = some thread ∧
        call thread.request = .upsert candidate := by
  intro change member
  cases change with
  | seeded records content => exact absurd trivial (unseeded _ member)
  | replaced who made seen content =>
    obtain ⟨before, after, split⟩ := List.append_of_mem member
    have own : before ++ [.replaced who made seen content] <+: pool.world.changes :=
      ⟨after, by rw [split, List.append_assoc, List.singleton_append]⟩
    obtain ⟨⟨candidate, rfl⟩, -⟩ := recorded.seen before who made seen content own
    obtain ⟨thread, there, same⟩ := accounted who _ seen content member
    exact ⟨who, thread, candidate, seen, content, rfl, there, same.symm⟩

theorem ended_told
    (kept : (storeServer texts aead store call Alone).Kept
      (storeContract aead store initial file call) pool)
    (unseeded : ∀ change ∈ pool.world.changes, ¬ change.IsSeed)
    {thread : Thread storeSignature ServiceError StoreAnswer R Directory}
    {outcome : Outcome ServiceError StoreAnswer} {left : Directory}
    (there : pool.threads[who]? = some thread) (ended : thread.phase = .ended outcome left) :
    thread.called.changes <+: left.changes ∧ left.changes <+: pool.world.changes ∧
      Clear who pool.world ∧
      Told initial store file who thread.called left pool.world (call thread.request) outcome := by
  have stands := (kept.each who thread there).2
  rw [Server.Stands, ended] at stands
  obtain ⟨since, shown, clear, answered⟩ := stands
  exact ⟨since, shown, clear, told_alone kept.inv unseeded since shown answered⟩

/-- The datastore is the whole payload of the registry that the completed upserts make one after
the other, and every call is answered from one moment between its start and its end. -/
structure Linearized (texts : GoTexts) (aead : Aead) (store : Store) (call : R → StoreCall)
    (initial : List (Record String)) (file : Option Bytes)
    (pool : Pool storeSignature ServiceError StoreAnswer R Directory) : Prop where
  stored : pool.world.file = fileAfter file pool.world.changes
  whole : ∀ before change, before ++ [change] <+: pool.world.changes →
    Payload aead store.key (registryAfter initial (before ++ [change])) change.content
  loads : loadRecords texts aead store.key pool.world.file =
    .ok (registryAfter initial pool.world.changes)
  once : (pool.world.changes.filterMap Change.who?).Nodup
  accounted : ∀ change ∈ pool.world.changes, ∃ who thread candidate seen content,
    change = .replaced who (.upsert candidate) seen content ∧ pool.threads[who]? = some thread ∧
      call thread.request = .upsert candidate
  told : ∀ (who : Nat) (thread : Thread storeSignature ServiceError StoreAnswer R Directory)
    (outcome : Outcome ServiceError StoreAnswer) (left : Directory),
    pool.threads[who]? = some thread → thread.phase = .ended outcome left →
      thread.called.changes <+: left.changes ∧ left.changes <+: pool.world.changes ∧
        Clear who pool.world ∧
        Told initial store file who thread.called left pool.world (call thread.request) outcome

/-- However calls overlap, fail and are cut off by a stop of the service, they act as if they came
one after the other, and none of those that have ended leaves a temporary file behind, but for one
that could not be removed. -/
theorem store_linearizable (opens : aead.Opens) (tagged : aead.Tagged)
    (loads : loadRecords texts aead store.key file = .ok initial) (untouched : start.Untouched file)
    (reached : (storeServer texts aead store call Alone).Reached start pool) :
    Linearized texts aead store call initial file pool := by
  have kept := store_kept opens tagged loads untouched (fun _ _ => False.elim) reached
  have unseeded := unseeded_reached untouched reached
  have accounted := accounted_reached untouched (fun _ _ => False.elim) reached
  have recorded : Recorded aead store initial file pool.world := kept.inv
  constructor
  · exact recorded.file
  · intro before change within
    have payload := recorded.whole before change within
    rwa [registry_alone recorded unseeded within] at payload
  · rw [← registry_alone recorded unseeded (List.prefix_refl _)]
    exact recorded_loads opens tagged loads recorded
  · exact recorded.once
  · exact changes_accounted recorded unseeded accounted
  · exact fun who thread outcome left there ended => ended_told kept unseeded there ended

theorem example_upsert_linearized : ∃ left,
    Linearized exampleTexts exampleAead exampleStore id [] none (exampleDone left) := by
  have opens := sampled_opens samples_consistent
  have tagged := sampled_tagged samples_consistent
  obtain ⟨left, reached, -⟩ := example_upsert_served opens tagged Alone
  exact ⟨left, store_linearizable opens tagged rfl example_untouched reached⟩

theorem completes_attempt (name : String) (op : TempOp) {cleanUp : StoreProg Unit}
    (cleans : cleanUp.Completes) (failure : String → ServiceError) :
    (Store.attempt name op cleanUp failure).Completes := by
  intro reply
  cases reply with
  | ok _ => trivial
  | error cause => exact cleans.bind fun _ => trivial

theorem completes_loadLocked : (store.loadLocked texts aead).Completes := by
  intro reply
  cases reply with
  | ok blob => exact Prog.completes_ofExcept _
  | error fault => cases fault <;> trivial

theorem completes_encryptFresh (plaintext : Bytes) : (store.encryptFresh aead plaintext).Completes := by
  rw [Store.encryptFresh]
  split
  · trivial
  · intro reply
    cases reply with
    | ok nonce => exact Prog.completes_ofExcept _
    | error cause => trivial

theorem completes_saveLocked (records : List (Record String)) :
    (store.saveLocked aead records).Completes := by
  refine (completes_encryptFresh _).bind ?_
  intro sealed reply
  cases reply with
  | error cause => trivial
  | ok name =>
    have removes : (Store.removeTemp name).Completes := fun _ => trivial
    have closes : (Store.closeAndRemove name).Completes := fun _ _ => trivial
    refine (completes_attempt name _ closes _).bind fun _ => ?_
    refine (completes_attempt name _ closes _).bind fun _ => ?_
    refine (completes_attempt name _ removes _).bind fun _ => ?_
    refine (completes_attempt name _ removes _).bind fun _ => ?_
    exact completes_attempt name _ removes _

theorem completes_body (made : StoreCall) : (store.body texts aead made).Completes := by
  cases made with
  | upsert candidate =>
    exact completes_loadLocked.bind fun records => (completes_saveLocked _).bind fun _ => trivial
  | load => exact completes_loadLocked.bind fun records => trivial
  | rawCiphertext =>
    intro reply
    cases reply with
    | ok blob => trivial
    | error fault => cases fault <;> trivial

instance : Nonempty StoreChoice :=
  ⟨⟨none, "", ⟨List.replicate nonceBytes 0, rfl⟩, 0⟩⟩

/-- Whatever has happened, seeds included, the threads that are left can run on until every request
that no stop has cut off is answered, as it should be. -/
theorem every_request_answered (opens : aead.Opens) (tagged : aead.Tagged)
    (loads : loadRecords texts aead store.key file = .ok initial) (untouched : start.Untouched file)
    (reached : (storeServer texts aead store call (Seeds aead store.key)).Reached start pool) :
    ∃ last, (storeServer texts aead store call (Seeds aead store.key)).Turns pool last ∧
      ∀ who thread, pool.threads[who]? = some thread → thread.phase ≠ .stopped →
        ∃ done outcome left, last.threads[who]? = some done ∧ done.phase = .ended outcome left ∧
          Answered store initial file who done.called left last.world (call thread.request) outcome := by
  have completes : ∀ request,
      ((storeServer texts aead store call (Seeds aead store.key)).body request).Completes :=
    fun request => completes_body (call request)
  obtain ⟨last, turns, answers⟩ :=
    Server.answer_all completes (Server.complete_reached completes reached)
  have kept := store_kept opens tagged loads untouched (fun _ _ => id) (reached.later turns.moves)
  refine ⟨last, turns, ?_⟩
  intro who thread there alive
  obtain ⟨done, outcome, left, found, same, ended⟩ := answers who thread there alive
  have stands := (kept.each who done found).2
  rw [Server.Stands, ended] at stands
  refine ⟨done, outcome, left, found, ended, ?_⟩
  rw [← same]
  exact stands.2.2.2

def examplePending : Pool storeSignature ServiceError StoreAnswer StoreCall Directory :=
  ⟨[⟨.upsert exampleRecord, exampleStart, .waiting⟩], exampleStart⟩

theorem example_upsert_answered : ∃ last,
    (exampleServer (Seeds exampleAead exampleKey)).Turns examplePending last ∧
    ∀ who thread, examplePending.threads[who]? = some thread → thread.phase ≠ .stopped →
      ∃ done outcome left, last.threads[who]? = some done ∧ done.phase = .ended outcome left ∧
        Answered exampleStore [] none who done.called left last.world thread.request outcome :=
  every_request_answered (sampled_opens samples_consistent) (sampled_tagged samples_consistent) rfl
    example_untouched (.next .start (.call (StoreCall.upsert exampleRecord)))

def Change.record? (hostname : String) : Change → Option (Record String)
  | .replaced _ (.upsert candidate) _ _ =>
      if candidate.hostname = hostname then some candidate else none
  | _ => none

def newest? (hostname : String) (changes : List Change) : Option (Record String) :=
  changes.reverse.findSome? (Change.record? hostname)

theorem find?_registryAfter (hostname : String) {changes : List Change}
    (unseeded : ∀ change ∈ changes, ¬ change.IsSeed) :
    (registryAfter initial changes).find? (fun record => record.hostname = hostname) =
      (newest? hostname changes).or (initial.find? fun record => record.hostname = hostname) := by
  induction changes using List.reverseRecOn with
  | nil => rfl
  | append_singleton changes change ih =>
    have before := ih fun change member => unseeded change (List.mem_append_left _ member)
    rw [registryAfter_snoc, newest?, List.reverse_concat, List.findSome?_cons]
    cases change with
    | seeded records content =>
      exact absurd trivial (unseeded _ (List.mem_append_right _ List.mem_cons_self))
    | replaced who made seen content =>
      cases made with
      | upsert candidate =>
        rw [Change.apply, StoreCall.apply, find?_upsertInto, Change.record?]
        split
        · rfl
        · exact before
      | load => exact before
      | rawCiphertext => exact before

theorem newest?_append (hostname : String) (before after : List Change) :
    newest? hostname (before ++ after) = (newest? hostname after).or (newest? hostname before) := by
  rw [newest?, List.reverse_append, List.findSome?_append]
  rfl

/-- An upsert that is acknowledged before a read begins is seen by the read, unless one that took
effect after it has given the host a newer record. -/
theorem acknowledged_upsert_seen (opens : aead.Opens) (tagged : aead.Tagged)
    (loads : loadRecords texts aead store.key file = .ok initial) (untouched : start.Untouched file)
    (reached : (storeServer texts aead store call Alone).Reached start pool)
    (later : Relation.ReflTransGen (storeServer texts aead store call Alone).Moves pool last)
    {writer reader : Nat}
    {write read : Thread storeSignature ServiceError StoreAnswer R Directory}
    {candidate : Record String} {answer : StoreAnswer} {records : List (Record String)}
    {left final : Directory} (upserts : call write.request = .upsert candidate)
    (loaded : call read.request = .load) (there : pool.threads[writer]? = some write)
    (acknowledged : write.phase = .ended (.returned answer) left)
    (new : pool.threads.length ≤ reader) (found : last.threads[reader]? = some read)
    (ended : read.phase = .ended (.returned (.records records)) final) :
    ∃ before after seen content moment,
      moment = before ++ .replaced writer (.upsert candidate) seen content :: after ∧
        moment <+: final.changes ∧ records = registryAfter initial moment ∧
        records.find? (fun record => record.hostname = candidate.hostname) =
          some ((newest? candidate.hostname after).getD candidate) := by
  have none : ∀ w w', Alone w w' → Seeds aead store.key w w' := fun _ _ => False.elim
  have kept := store_kept opens tagged loads untouched none reached
  have held := store_kept opens tagged loads untouched none (reached.later later)
  have recorded : Recorded aead store initial file last.world := held.inv
  have unseeded := unseeded_reached untouched (reached.later later)
  have follows := Server.since_called (store_lawful opens tagged loads none) kept later new found
  have wrote := (kept.each writer write there).2
  have sees := (held.each reader read found).2
  rw [Server.Stands, acknowledged] at wrote
  rw [Server.Stands, ended] at sees
  obtain ⟨since, shown, -, seen⟩ := sees
  have told := told_alone recorded unseeded since shown seen
  obtain ⟨-, before_now, -, written⟩ := wrote
  rw [upserts] at written
  rw [loaded] at told
  cases written with
  | @upserted _ before noticed content _ _ own =>
    cases told with
    | @loaded moment early late =>
      have inside : before ++ [.replaced writer (.upsert candidate) noticed content] <+: moment :=
        (own.trans before_now).trans (follows.trans early)
      obtain ⟨after, all⟩ := inside
      refine ⟨before, after, noticed, content, moment, ?_, late, rfl, ?_⟩
      · rw [← all, List.append_assoc, List.singleton_append]
      · have plain : ∀ change ∈ moment, ¬ change.IsSeed :=
          fun change member => unseeded change ((late.trans shown).subset member)
        have own : newest? candidate.hostname
            [.replaced writer (.upsert candidate) noticed content] = some candidate := by
          simp [newest?, Change.record?]
        rw [find?_registryAfter _ plain, ← all, newest?_append, newest?_append, own]
        cases newest? candidate.hostname after <;> rfl

theorem example_upsert_seen : ∃ (final : Directory) (records : List (Record String))
    (before after : List Change) (seen : Nat) (content : Bytes) (moment : List Change),
    moment = before ++ .replaced 0 (.upsert exampleRecord) seen content :: after ∧
      moment <+: final.changes ∧ records = registryAfter [] moment ∧
      records.find? (fun record => record.hostname = exampleRecord.hostname) =
        some ((newest? exampleRecord.hostname after).getD exampleRecord) := by
  have opens := sampled_opens samples_consistent
  have tagged := sampled_tagged samples_consistent
  obtain ⟨left, reached, -⟩ := example_upsert_served opens tagged Alone
  have idle : ∀ thread ∈ (exampleDone left).threads, ¬ thread.Inside := by
    intro thread member inside
    rw [List.mem_singleton.mp member] at inside
    obtain ⟨rest, phase⟩ := inside
    cases phase
  have kept := store_kept opens tagged rfl example_untouched (fun _ _ => False.elim) reached
  have loaded : loadRecords exampleTexts exampleAead exampleKey left.file =
      .ok (registry [] left.changes) :=
    recorded_loads opens tagged rfl kept.inv
  have later := @Server.serve_alone _ _ _ _ _ _ (exampleServer Alone) (exampleDone left) idle .load
    [exampleChoice] _ _ (eval_load rfl loaded 1) (fun same => by cases same)
  exact ⟨left, _, acknowledged_upsert_seen opens tagged rfl example_untouched reached later rfl rfl rfl
    rfl (Nat.le_refl 1) rfl rfl⟩

/-- The first call to complete after a seed had read the file before it. -/
def Stale (count : Nat) : List Change → Prop
  | .replaced _ _ seen _ :: _ => seen ≤ count
  | _ => False

-- A call that completes after another one has seen every change before its own.
theorem seen_after (recorded : Recorded aead store initial file w) {before : List Change}
    {earlier : Change} {made : StoreCall} {seen : Nat} {content : Bytes} (plain : ¬ earlier.IsSeed)
    (own : before ++ [earlier] ++ [.replaced who made seen content] <+: w.changes) :
    seen = (before ++ [earlier]).length := by
  obtain ⟨-, within, missed⟩ := recorded.seen _ who made seen content own
  by_contra apart
  have early : seen ≤ before.length := by
    rw [List.length_append, List.length_singleton] at within apart
    omega
  refine plain (missed earlier ?_)
  rw [List.drop_append_of_le_length early]
  exact List.mem_append_right _ List.mem_cons_self

-- Calls that have seen what was there before them are applied one after the other.
theorem registry_onwards (recorded : Recorded aead store initial file w) (front : List Change)
    {changes : List Change} (within : front ++ changes <+: w.changes)
    (unseeded : ∀ change ∈ changes, ¬ change.IsSeed)
    (first : ∀ who made seen content rest, changes = .replaced who made seen content :: rest →
      seen = front.length) :
    registry initial (front ++ changes) = registryAfter (registry initial front) changes := by
  induction changes using List.reverseRecOn with
  | nil => rw [List.append_nil, registryAfter, List.foldl_nil]
  | append_singleton changes change ih =>
    rw [← List.append_assoc] at within
    have before := ih ((List.prefix_append _ _).trans within)
      (fun change member => unseeded change (List.mem_append_left _ member))
      fun who made seen content rest same =>
        first who made seen content (rest ++ [change]) (by rw [same, List.cons_append])
    cases change with
    | seeded records content =>
      exact absurd trivial (unseeded _ (List.mem_append_right _ List.mem_cons_self))
    | replaced who made seen content =>
      have all : seen = (front ++ changes).length := by
        rcases List.eq_nil_or_concat' changes with rfl | ⟨earlier, last, rfl⟩
        · rw [List.append_nil]
          exact first who made seen content [] rfl
        · rw [← List.append_assoc] at within ⊢
          refine seen_after recorded (unseeded last ?_) within
          exact List.mem_append_left _ (List.mem_append_right _ List.mem_cons_self)
      rw [← List.append_assoc, registry_replaced, all, registryAfter_snoc, ← before]
      rfl

section Seeded

variable {before after : List Change} {seeds : List (Record String)} {content : Bytes}

theorem registry_fresh (recorded : Recorded aead store initial file w)
    (changes : w.changes = before ++ .seeded seeds content :: after)
    (unseeded : ∀ change ∈ after, ¬ change.IsSeed) (fresh : ¬ Stale before.length after) :
    registry initial (before ++ .seeded seeds content :: after) = registryAfter seeds after := by
  have split : before ++ .seeded seeds content :: after =
      before ++ [.seeded seeds content] ++ after := by
    rw [List.append_assoc, List.singleton_append]
  have first : ∀ who made seen replaced rest, after = .replaced who made seen replaced :: rest →
      seen = (before ++ [Change.seeded seeds content]).length := by
    rintro who made seen replaced rest rfl
    have own : before ++ [.seeded seeds content] ++ [.replaced who made seen replaced] <+:
        w.changes := ⟨rest, by rw [changes, split, List.append_assoc _ _ rest, List.singleton_append]⟩
    have early := (recorded.seen _ who made seen replaced own).2.1
    rw [Stale, Nat.not_le] at fresh
    rw [List.length_append, List.length_singleton] at early ⊢
    omega
  have all : before ++ [.seeded seeds content] ++ after <+: w.changes :=
    ⟨[], by rw [List.append_nil, changes, split]⟩
  rw [split, registry_onwards recorded _ all unseeded first, registry_seeded]

theorem registry_stale (recorded : Recorded aead store initial file w)
    (changes : w.changes = before ++ .seeded seeds content :: after)
    (unseeded : ∀ change ∈ after, ¬ change.IsSeed) (stale : Stale before.length after) :
    ∃ who candidate seen replaced rest, after = .replaced who (.upsert candidate) seen replaced :: rest ∧
      registry initial (before ++ .seeded seeds content :: after) =
        registryAfter (upsertInto candidate (version initial before seen)) rest := by
  cases after with
  | nil => exact stale.elim
  | cons change rest =>
    cases change with
    | seeded records further => exact stale.elim
    | replaced who made seen replaced =>
      have early : seen ≤ before.length := stale
      let front := before ++ [.seeded seeds content]
      let own := Change.replaced who made seen replaced
      have split : before ++ .seeded seeds content :: own :: rest = front ++ [own] ++ rest := by
        simp [front]
      have within : front ++ [own] <+: w.changes := ⟨rest, by rw [changes, split]⟩
      obtain ⟨⟨candidate, rfl⟩, -⟩ := recorded.seen front who made seen replaced within
      refine ⟨who, candidate, seen, replaced, rest, rfl, ?_⟩
      have plain : ¬ own.IsSeed := id
      have first : ∀ other made noticed further last, rest = .replaced other made noticed further :: last →
          noticed = (front ++ [own]).length := by
        rintro other made noticed further last rfl
        refine @seen_after _ _ _ _ other w recorded front own made noticed further plain ?_
        exact ⟨last, by rw [changes, split, List.append_assoc _ _ last, List.singleton_append]⟩
      have all : front ++ [own] ++ rest <+: w.changes :=
        ⟨[], by rw [List.append_nil, changes, split]⟩
      rw [split, registry_onwards recorded _ all
        (fun change member => unseeded change (List.mem_cons_of_mem _ member)) first,
        registry_replaced, version_append early]
      rfl

end Seeded

/-- A seed and the upserts after it make the registry, unless the first of them had read the file
before the seed: then the seed is lost as a whole, and the registry is that of the upserts. -/
theorem seed_kept_or_lost (opens : aead.Opens) (tagged : aead.Tagged)
    (loads : loadRecords texts aead store.key file = .ok initial) (untouched : start.Untouched file)
    (reached : (storeServer texts aead store call (Seeds aead store.key)).Reached start pool)
    {before after : List Change} {seeds : List (Record String)} {content : Bytes}
    (changes : pool.world.changes = before ++ .seeded seeds content :: after)
    (unseeded : ∀ change ∈ after, ¬ change.IsSeed) :
    (¬ Stale before.length after →
      loadRecords texts aead store.key pool.world.file = .ok (registryAfter seeds after) ∧
        ∀ hostname, (registryAfter seeds after).find? (fun record => record.hostname = hostname) =
          (newest? hostname after).or (seeds.find? fun record => record.hostname = hostname)) ∧
    (Stale before.length after → ∃ who candidate seen replaced rest,
      after = .replaced who (.upsert candidate) seen replaced :: rest ∧
        loadRecords texts aead store.key pool.world.file =
          .ok (registryAfter (upsertInto candidate (version initial before seen)) rest)) := by
  have kept := store_kept opens tagged loads untouched (fun _ _ => id) reached
  have recorded : Recorded aead store initial file pool.world := kept.inv
  have reads := recorded_loads opens tagged loads recorded
  rw [changes] at reads
  refine ⟨fun fresh => ⟨?_, fun hostname => find?_registryAfter hostname unseeded⟩, fun stale => ?_⟩
  · rw [reads, registry_fresh recorded changes unseeded fresh]
  · obtain ⟨who, candidate, seen, replaced, rest, same, lost⟩ :=
      registry_stale recorded changes unseeded stale
    exact ⟨who, candidate, seen, replaced, rest, same, by rw [reads, lost]⟩

-- A seed between the two accesses of an upsert to the file.
theorem overtaken_reached {aead : Aead} (opens : aead.Opens) (tagged : aead.Tagged)
    (candidate : Record String) (seeds : List (Record String)) :
    ∃ (left : Directory) (content blob : Bytes),
      (storeServer exampleTexts aead exampleStore id (Seeds aead exampleKey)).Reached exampleStart
        ⟨[⟨.upsert candidate, exampleStart, .ended (.returned (.records [candidate])) left⟩], left⟩ ∧
      left.changes = [.seeded seeds content, .replaced 0 (.upsert candidate) 0 blob] ∧
      loadRecords exampleTexts aead exampleKey left.file = .ok [candidate] := by
  obtain ⟨content, seeded⟩ : ∃ content,
      encryptRecords aead seeds exampleKey exampleNonce = .ok content := ⟨_, rfl⟩
  obtain ⟨blob, sealed, loads⟩ := @sealRecords_loads exampleTexts aead exampleKey exampleNonce
    opens tagged rfl rfl [candidate]
  let seed : Directory := ⟨some content, fun _ => none, [.seeded seeds content], 0, []⟩
  obtain ⟨left, saves, file, changes, -⟩ := @eval_saveLocked aead exampleStore seed [candidate]
    blob exampleChoice rfl rfl sealed 0 (.upsert candidate)
  let server := storeServer exampleTexts aead exampleStore id (Seeds aead exampleKey)
  let caller : Thread storeSignature ServiceError StoreAnswer StoreCall Directory :=
    ⟨.upsert candidate, exampleStart, .waiting⟩
  let rest : StoreProg StoreAnswer := (exampleStore.saveLocked aead [candidate]).bind
    fun _ => .done (.records [candidate])
  let held : Pool storeSignature ServiceError StoreAnswer StoreCall Directory := ⟨[{ caller with
    phase := .inside (exampleStore.upsert exampleTexts aead candidate) }], exampleStart⟩
  have free : server.Admits ⟨[caller], exampleStart⟩ .exclusive := by
    intro thread member inside
    rw [List.mem_singleton.mp member] at inside
    obtain ⟨_, phase⟩ := inside
    cases phase
  have enters := @Server.Turn.enter _ _ _ _ _ _ server ⟨[caller], exampleStart⟩ 0 caller rfl rfl free
  have entered : server.Reached exampleStart held :=
    .next (.next .start (.call (StoreCall.upsert candidate))) (.turn enters)
  have reads := @Server.Turn.act _ _ _ _ _ _ server held 0 _ _ _ exampleChoice rfl rfl
  have read : server.Reached exampleStart ⟨[{ caller with phase := .inside rest }], exampleStart⟩ :=
    .next entered (.turn reads)
  have seeding : server.Reached exampleStart ⟨[{ caller with phase := .inside rest }], seed⟩ :=
    .next read (.outside (@Seeds.seed _ _ _ _ exampleChoice.nonce _ seeded))
  let waiting : Thread storeSignature ServiceError StoreAnswer StoreCall Directory :=
    { caller with phase := .inside rest }
  have ends := @Server.turns_alone _ _ _ _ _ _ server rest ⟨[waiting], seed⟩ 0 waiting
    (List.replicate 7 exampleChoice) _ left rfl rfl (Server.eval_bind_done saves _)
    (fun same => by cases same)
  refine ⟨left, content, blob, seeding.later ends.moves, changes, ?_⟩
  rw [file]
  exact loads

theorem example_seed_lost : ∃ (left : Directory) (content blob : Bytes),
    left.changes = [] ++ .seeded [exampleRecord] content ::
      [.replaced 0 (.upsert exampleRecord) 0 blob] ∧
    ∃ who candidate seen replaced rest,
      [.replaced 0 (.upsert exampleRecord) 0 blob] =
        Change.replaced who (.upsert candidate) seen replaced :: rest ∧
      loadRecords exampleTexts exampleAead exampleKey left.file =
        .ok (registryAfter (upsertInto candidate (version [] [] seen)) rest) := by
  have opens := sampled_opens samples_consistent
  have tagged := sampled_tagged samples_consistent
  obtain ⟨left, content, blob, reached, changes, -⟩ :=
    overtaken_reached opens tagged exampleRecord [exampleRecord]
  have plain : ∀ change ∈ [Change.replaced 0 (.upsert exampleRecord) 0 blob], ¬ change.IsSeed := by
    intro change member
    rw [List.mem_singleton.mp member]
    exact id
  exact ⟨left, content, blob, changes,
    (seed_kept_or_lost opens tagged rfl example_untouched reached changes plain).2 (Nat.le_refl 0)⟩

end Pools

end Runs

end VmDeploy.Inventory
