import VmDeploy.Service.Phases

/-! When a skipped build is sound: the stamp, the binary and the sources over runs. -/

set_option autoImplicit false

open Effects Python Shell

namespace VmDeploy.Service

open Remote

section Current

variable (sha256 : Bytes → Bytes) (compile : List Bytes → Bytes) (sourceDir : String)

/-- The stamp is the fingerprint of the tree the installed binary was compiled from. -/
def Sound (station : Station) : Prop :=
  ∀ stamp, station.stamp = some stamp → ∃ tree : Tree, TextOnly tree.contents ∧
    stamp = fingerprint sha256 tree.contents ∧ station.binary = some (compile tree.contents)

/-- A run that skips the build fingerprints the contents the binary is compiled from. -/
def Current (before : Station) (outcome : Outcome PyError Bool) (after : Station) : Prop :=
  outcome = .returned false → ∃ tree : Tree,
    after.reads = before.reads ++ readsOf sourceDir hashFiles tree.contents ∧
      after.binary = some (compile tree.contents)

/-- No file but the template was read with a NUL byte in it. -/
def Plain (sourceDir : String) (reads : List (String × Bytes)) : Prop :=
  ∀ read ∈ reads, read.1 ≠ sourcePath sourceDir templateRel → 0 ∉ read.2

def Steady (reads : List (String × Bytes)) : Prop :=
  ∀ read ∈ reads, ∀ other ∈ reads, read.1 = other.1 → read.2 = other.2

/-- No installation is left without its stamp, and the sources are text that does not
change between its upload and its stamp. -/
def Clean (before : Station) (_ : Outcome PyError Bool) (after : Station) : Prop :=
  after.unstamped = false ∧ Plain sourceDir (after.reads.drop before.reads.length) ∧
    Steady (after.reads.drop (before.reads.length + hashFiles.length))

instance (reads : List (String × Bytes)) : Decidable (Plain sourceDir reads) :=
  inferInstanceAs (Decidable (∀ read ∈ reads, _))

instance (reads : List (String × Bytes)) : Decidable (Steady reads) :=
  inferInstanceAs (Decidable (∀ read ∈ reads, ∀ other ∈ reads, _))

instance (before after : Station) (outcome : Outcome PyError Bool) :
    Decidable (Clean sourceDir before outcome after) :=
  inferInstanceAs (Decidable (_ ∧ _ ∧ _))

/-- A stamped installation: three readings of the tree, the second compiled and the
third fingerprinted. -/
def Stamped (before after : Station) : Prop :=
  ∃ wanted built stamped : List Bytes, wanted.length = hashFiles.length ∧
    built.length = hashFiles.length ∧ stamped.length = hashFiles.length ∧
    after.reads = before.reads ++ (readsOf sourceDir hashFiles wanted ++
      (readsOf sourceDir hashFiles built ++ readsOf sourceDir hashFiles stamped)) ∧
    after.stamp = some (fingerprint sha256 stamped) ∧ after.binary = some (compile built)

def Ending (before after : Station) : Prop :=
  before.SameInstall after ∨ after.unstamped = true ∨ Stamped sha256 compile sourceDir before after

end Current

variable {sha256 : Bytes → Bytes} {compile : List Bytes → Bytes} {sourceDir remoteDir : String}
  {policy : Policy} {env : Option String} {host : RemoteHost} {before after : Station}

theorem readsOf_getElem {names : List String} {contents : List Bytes}
    (complete : contents.length = names.length) {index : Nat} (bound : index < names.length) :
    (sourcePath sourceDir names[index], contents[index]) ∈ readsOf sourceDir names contents := by
  refine List.mem_iff_getElem.mpr ⟨index, by simp [readsOf, complete, bound], ?_⟩
  simp [readsOf]

theorem textOnly_of_plain {contents : List Bytes} (complete : contents.length = hashFiles.length)
    (plain : Plain sourceDir (readsOf sourceDir hashFiles contents)) : TextOnly contents := by
  intro content member
  obtain ⟨index, bound, rfl⟩ := List.mem_iff_getElem.mp member
  rw [List.length_dropLast] at bound
  rw [List.getElem_dropLast]
  refine plain _ (readsOf_getElem complete (show index < hashFiles.length by omega)) ?_
  refine (sourcePath_injective sourceDir).ne ?_
  have others : ∀ early : Fin 5, hashFiles[early] ≠ templateRel := by decide
  exact others ⟨index, by rw [complete] at bound; exact bound⟩

theorem contents_eq_of_steady {contents others : List Bytes}
    (complete : contents.length = hashFiles.length) (full : others.length = hashFiles.length)
    (steady : Steady (readsOf sourceDir hashFiles contents ++ readsOf sourceDir hashFiles others)) :
    contents = others := by
  refine List.ext_getElem (complete.trans full.symm) fun index bound limit => ?_
  have here : index < hashFiles.length := complete ▸ bound
  exact steady _ (List.mem_append_left _ (readsOf_getElem complete here)) _
    (List.mem_append_right _ (readsOf_getElem full here)) rfl

theorem length_readsOf {contents : List Bytes} (complete : contents.length = hashFiles.length) :
    (readsOf sourceDir hashFiles contents).length = hashFiles.length := by
  simp [readsOf, complete]

theorem Station.Reads.ending {more : List (String × Bytes)} (reads : before.Reads more after) :
    Ending sha256 compile sourceDir before after :=
  .inl reads.1

theorem sound_of_ending (sound : Sound sha256 compile before)
    (ending : Ending sha256 compile sourceDir before after) {outcome : Outcome PyError Bool}
    (clean : Clean sourceDir before outcome after) : Sound sha256 compile after := by
  obtain ⟨stamped, plain, steady⟩ := clean
  rcases ending with ⟨binary, stamp, _⟩ | unstamped |
    ⟨wanted, built, last, complete, full, whole, reads, stamp, binary⟩
  · intro digest written
    rw [binary]
    exact sound digest (stamp ▸ written)
  · exact absurd (unstamped.symm.trans stamped) (by decide)
  · intro digest written
    rw [reads, ← List.append_assoc, List.drop_append_of_le_length (by
      simp [length_readsOf complete]), List.drop_of_length_le (by
      simp [length_readsOf complete]), List.nil_append] at steady
    obtain rfl := contents_eq_of_steady full whole steady
    refine ⟨⟨built, full⟩, textOnly_of_plain full fun read member => plain read ?_, ?_, binary⟩
    · rw [reads, List.drop_left]
      exact List.mem_append_right _ (List.mem_append_left _ member)
    · exact (Option.some.inj (stamp.symm.trans written)).symm

def Matched (sha256 : Bytes → Bytes) (sourceDir : String) (before after : Station) : Prop :=
  ∃ wanted : List Bytes, wanted.length = hashFiles.length ∧
    before.Reads (readsOf sourceDir hashFiles wanted) after ∧
    ∃ stamp, before.stamp = some stamp ∧ stripped stamp = fingerprint sha256 wanted

theorem stripped_fingerprint (contents : List Bytes) :
    stripped (fingerprint sha256 contents) = fingerprint sha256 contents := by
  rw [stripped, strip_fingerprint, String.ofList_toList]

-- With a sound stamp that matches, the binary is compiled from the contents read.
theorem current_of_matched (noCollision : Function.Injective sha256)
    (sound : Sound sha256 compile before) (matched : Matched sha256 sourceDir before after)
    (plain : Plain sourceDir (after.reads.drop before.reads.length)) :
    ∃ tree : Tree, after.reads = before.reads ++ readsOf sourceDir hashFiles tree.contents ∧
      after.binary = some (compile tree.contents) := by
  obtain ⟨wanted, complete, ⟨⟨binary, _, _⟩, reads⟩, stamp, written, same⟩ := matched
  obtain ⟨tree, text, rfl, compiled⟩ := sound stamp written
  rw [stripped_fingerprint] at same
  rw [reads, List.drop_left] at plain
  obtain rfl : tree = ⟨wanted, complete⟩ :=
    fingerprint_injective noCollision text (textOnly_of_plain complete plain) same
  exact ⟨⟨wanted, complete⟩, reads, binary.trans compiled⟩

theorem upholds_sourceHash (station : Station) :
    Upholds (stationStep compile remoteDir policy env) (sourceHash sha256 sourceDir) station
      (fun after => ∃ more, station.Reads more after)
      (fun digest after => ∃ contents, contents.length = hashFiles.length ∧
        digest = fingerprint sha256 contents ∧
        after = { station with reads := station.reads ++ readsOf sourceDir hashFiles contents }) := by
  refine upholds_bind (upholds_readSources sourceDir hashFiles station) ?_
  rintro contents after kept ⟨complete, read⟩
  exact upholds_done kept ⟨contents, complete, rfl, read⟩

-- From the compiled binary on: install, fingerprint again and stamp.
theorem upholds_finishBuild {station : Station} {wanted built : List Bytes}
    (complete : wanted.length = hashFiles.length) (full : built.length = hashFiles.length)
    (reads : before.Reads (readsOf sourceDir hashFiles wanted ++ readsOf sourceDir hashFiles built)
      station)
    (compiled : station.files (buildPath serviceName) = some (compile built)) :
    Upholds (stationStep compile remoteDir policy env)
      ((onGuest (host.sudo (makeRemoteDir remoteDir) true none)).bind fun _ =>
        (onGuest (host.sudo (installBinary remoteDir) true none)).bind fun _ =>
        (onGuest (host.run (.plain removeBuildDir) false none)).bind fun _ =>
        (sourceHash sha256 sourceDir).bind fun digest =>
        (onGuest (host.sudo (writeStamp remoteDir digest) true none)).bind fun _ => .done ())
      station (Ending sha256 compile sourceDir before) (fun _ _ => True) := by
  have makes : Upholds (stationStep compile remoteDir policy env)
      (onGuest (host.sudo (makeRemoteDir remoteDir) true none)) station (· = station) _ :=
    upholds_idle (sudo_idle rfl (by rw [action_makeRemoteDir]; rfl)) station
  refine upholds_bind (makes.mono (fun _ same => same ▸ reads.ending) fun _ _ same _ => same) ?_
  rintro _ station _ rfl
  have installs : Upholds (stationStep compile remoteDir policy env)
      (onGuest (host.sudo (installBinary remoteDir) true none)) station _ _ :=
    upholds_installBinary compiled
  refine upholds_bind (installs.mono ?_ fun _ _ held placed => And.intro held.1 placed) ?_
  · rintro after ⟨_, rfl | unstamped⟩
    · exact reads.ending
    · exact .inr (.inl unstamped)
  rintro _ installed _ ⟨same, binary, unstamped⟩
  have removes : Upholds (stationStep compile remoteDir policy env)
      (onGuest (host.run (.plain removeBuildDir) false none)) installed (installed.Reads []) _ :=
    upholds_harmless (runs_harmless
      (by simp [Line.commands, removeBuildDir, program, actionOf, Action.installs])) installed
  refine upholds_bind (removes.mono (fun _ still => .inr (.inl (still.1.2.2.trans unstamped)))
    fun _ _ still _ => still) ?_
  rintro _ removed _ ⟨⟨sameBinary, _, sameFlag⟩, sameReads⟩
  have hashes : Upholds (stationStep compile remoteDir policy env) (sourceHash sha256 sourceDir)
      removed _ _ := upholds_sourceHash removed
  refine upholds_bind (hashes.mono ?_ fun _ _ _ read => read) ?_
  · rintro after ⟨_, ⟨⟨_, _, kept⟩, _⟩⟩
    exact .inr (.inl (kept.trans (sameFlag.trans unstamped)))
  rintro _ _ _ ⟨stamped, whole, rfl, rfl⟩
  have stamps : Upholds (stationStep compile remoteDir policy env)
      (onGuest (host.sudo (writeStamp remoteDir (fingerprint sha256 stamped)) true none))
      { removed with reads := removed.reads ++ readsOf sourceDir hashFiles stamped } _ _ :=
    upholds_writeStamp _ (sameFlag.trans unstamped)
  refine upholds_bind (stamps.mono ?_ fun _ _ _ _ => trivial)
    fun _ _ held _ => upholds_done held trivial
  rintro after ⟨⟨finalReads, finalBinary⟩, open' | written⟩
  · exact .inr (.inl open')
  · refine .inr (.inr ⟨wanted, built, stamped, complete, full, whole, ?_, written, ?_⟩)
    · rw [finalReads, sameReads, same, reads.2]
      simp
    · exact finalBinary.trans (sameBinary.trans binary)

theorem upholds_buildService {station : Station} {wanted : List Bytes}
    (complete : wanted.length = hashFiles.length)
    (reads : before.Reads (readsOf sourceDir hashFiles wanted) station) :
    Upholds (stationStep compile remoteDir policy env)
      (buildService sha256 host sourceDir remoteDir) station
      (Ending sha256 compile sourceDir before) (fun _ _ => True) := by
  have requires : Upholds (stationStep compile remoteDir policy env) (requireSources sourceDir)
      station (· = station) _ := upholds_idle (requireSources_idle sourceDir) station
  refine upholds_bind (requires.mono (fun _ same => same ▸ reads.ending) fun _ _ same _ => same) ?_
  rintro _ station _ rfl
  have prepares : Upholds (stationStep compile remoteDir policy env)
      (onGuest (host.run (.plain prepareBuildDir) true none)) station (station.Reads []) _ :=
    upholds_harmless (runs_harmless
      (by simp [Line.commands, prepareBuildDir, actionOf, goBuild, Action.installs])) station
  refine upholds_bind (prepares.mono (fun _ still => (reads.still still).ending)
    fun _ _ still _ => reads.still still) ?_
  clear reads
  rintro _ prepared _ reads
  have uploads : Upholds (stationStep compile remoteDir policy env)
      (uploadSources host sourceDir hashFiles) prepared _ _ :=
    upholds_uploadSources sourceDir (by decide) prepared
  refine upholds_bind (uploads.mono ?_ fun _ _ _ uploaded => uploaded) ?_
  · rintro _ ⟨_, more⟩
    exact (reads.trans more).ending
  rintro _ uploaded _ ⟨built, full, more, files, _⟩
  have both := reads.trans more
  have sources := treeAt_eq files
  have chowns : Upholds (stationStep compile remoteDir policy env)
      (onGuest (host.sudo chownBuildDir false none)) uploaded (· = uploaded) _ :=
    upholds_idle (sudo_idle rfl (by rw [action_chown]; rfl)) uploaded
  refine upholds_bind (chowns.mono (fun _ same => same ▸ both.ending) fun _ _ same _ => same) ?_
  rintro _ uploaded _ rfl
  have compiles : Upholds (stationStep compile remoteDir policy env)
      (onGuest (compileService host)) uploaded _ _ := upholds_compileService sources
  refine upholds_bind (compiles.mono (fun _ still => (both.still still).ending)
    fun _ _ still compiled => And.intro still compiled) ?_
  rintro _ compiled _ ⟨still, binary⟩
  exact upholds_finishBuild complete full (both.still still) binary

-- A run that returns `False` found the installed stamp to match what it had read.
theorem upholds_ensureServiceBinary (visible : ∀ bytes, sha256 bytes ≠ []) (cacheDir : String)
    (config : ClusterConfig) (before : Station) :
    Upholds (stationStep compile config.inventory.remoteDir policy env)
      (ensureServiceBinary sha256 host sourceDir cacheDir config) before
      (Ending sha256 compile sourceDir before)
      (fun recompiled after => recompiled = false → Matched sha256 sourceDir before after) := by
  have hashes : Upholds (stationStep compile config.inventory.remoteDir policy env)
      (sourceHash sha256 sourceDir) before _ _ := upholds_sourceHash before
  refine upholds_bind (hashes.mono ?_ fun _ _ _ read => read) ?_
  · rintro _ ⟨_, reads⟩
    exact reads.ending
  rintro _ station _ ⟨wanted, complete, rfl, same⟩
  have reads : before.Reads (readsOf sourceDir hashFiles wanted) station :=
    same ▸ ⟨⟨rfl, rfl, rfl⟩, rfl⟩
  clear same
  have cats : Upholds (stationStep compile config.inventory.remoteDir policy env)
      (onGuest (installedSourceHash host config.inventory.remoteDir)) station (· = station) _ :=
    upholds_installedSourceHash
  refine upholds_bind (cats.mono (fun _ same => same ▸ reads.ending)
    fun _ _ same stamp => And.intro same stamp) ?_
  rintro installed station _ ⟨rfl, printed⟩
  have tests : Upholds (stationStep compile config.inventory.remoteDir policy env)
      (onGuest (host.sudo (testBinary config.inventory.remoteDir) false none)) station
      (· = station) _ := upholds_idle (sudo_idle rfl (by rw [action_testBinary]; rfl)) station
  refine upholds_bind (tests.mono (fun _ same => same ▸ reads.ending) fun _ _ same _ => same) ?_
  rintro present station _ rfl
  split
  · next skips =>
    refine upholds_done reads.ending fun _ => ⟨wanted, complete, reads, ?_⟩
    rw [Bool.and_eq_true, decide_eq_true_iff] at skips
    obtain rfl := skips.2
    rcases printed with empty | ⟨stamp, written, same⟩
    · exact absurd (hex_injective (show hex _ = hex [] from empty)) (visible _)
    · exact ⟨stamp, reads.1.2.1 ▸ written, same.symm⟩
  · have toolchain : Upholds (stationStep compile config.inventory.remoteDir policy env)
        (installGo cacheDir host config.build) station (station.Reads []) _ :=
      upholds_harmless (installGo_harmless cacheDir config.build) station
    refine upholds_bind (toolchain.mono (fun _ still => (reads.still still).ending)
      fun _ _ still _ => reads.still still) ?_
    intro _ station _ reads
    refine upholds_bind (upholds_buildService complete reads) ?_
    exact fun _ _ ending _ => upholds_done ending fun skipped => absurd skipped (by decide)

/-- In every sequence of runs that meet the condition, a run that skips the build
leaves the binary compiled from the contents it has just fingerprinted. -/
theorem skipped_builds_are_current (noCollision : Function.Injective sha256)
    (visible : ∀ bytes, sha256 bytes ≠ []) {cacheDir : String} {config : ClusterConfig}
    {start : Station} (sound : Sound sha256 compile start)
    {scripts : List (List (GuestChoice × ((op : LocalOp) → op.Reply)))}
    (clean : EachRun (stationStep compile config.inventory.remoteDir policy env)
      (ensureServiceBinary sha256 host sourceDir cacheDir config) (Clean sourceDir) start scripts) :
    EachRun (stationStep compile config.inventory.remoteDir policy env)
      (ensureServiceBinary sha256 host sourceDir cacheDir config) (Current compile sourceDir) start
      scripts := by
  refine eachRun_of_invariant (Sound sha256 compile) ?_ sound clean
  intro before sound
  refine Always.mono (upholds_ensureServiceBinary visible cacheDir config before) ?_
  rintro outcome after ⟨ending, returned⟩ clean
  refine ⟨sound_of_ending sound ending clean, ?_⟩
  rintro rfl
  exact current_of_matched noCollision sound (returned false rfl rfl) clean.2.1

theorem contents_of_reads {reads later : List (String × Bytes)} {tree : Tree}
    (last : later = reads ++ readsOf sourceDir hashFiles tree.contents) :
    tree.contents = (later.drop reads.length).map Prod.snd := by
  rw [last, List.drop_left, readsOf, List.map_snd_zip]
  simp [tree.complete]

def sourcesWith (main : Bytes) : List Bytes :=
  [[], main, [], [], [], []]

/-- The digests of two trees; any other text is marked by a byte that begins neither. -/
def exampleSha256 (text : Bytes) : Bytes :=
  if text = preimage hashFiles (sourcesWith []) then
    [45, 216, 0, 102, 189, 176, 94, 159, 235, 62, 237, 201, 84, 252, 50, 212, 249, 165, 208, 18, 154,
      180, 96, 152, 228, 54, 14, 215, 87, 192, 157, 94]
  else if text = preimage hashFiles (sourcesWith [118]) then
    [49, 137, 132, 252, 45, 193, 192, 126, 53, 218, 55, 51, 53, 184, 144, 24, 210, 87, 145, 141, 183,
      132, 246, 212, 182, 151, 99, 206, 170, 253, 222, 96]
  else 0 :: text

theorem exampleSha256_injective : Function.Injective exampleSha256 := by
  intro first second same
  unfold exampleSha256 at same
  split_ifs at same <;> simp_all
theorem exampleSha256_visible (bytes : Bytes) : exampleSha256 bytes ≠ [] := by
  unfold exampleSha256
  split
  · nofun
  · split <;> nofun

def exampleConfig : ClusterConfig where
  ssh := exampleHost.ssh
  virtualbox := ⟨"VBoxManage", "template", "template.ova", "image", 2048, 2, 300⟩
  jump := ⟨"jump", "jump", .jump, 80⟩
  backends := []
  inventory := ⟨8080, "/opt/inventory", "/opt/inventory/key", "datastore", "manifest"⟩
  website := ⟨"", "", "/var/www/html"⟩
  build := ⟨"1.22", ""⟩

def smooth (main : Bytes) : GuestChoice × ((op : LocalOp) → op.Reply) where
  fst :=
    { output := fun _ => ⟨0, "go version go1.22 linux/amd64", ""⟩
      debris := none
      stampDebris := none
      survives := fun _ => false
      lost := none
      transfer := .ok ()
      random := [] }
  snd
    | .isFile _ => true
    | .readBytes path => .ok (if path = "src/main.go" then main else [])
    | .sha256File _ => .error ""
    | .mkdirParents _ => .ok ()
    | .download _ _ => .ok ()
    | .unlink _ => .ok ()

def untouched : Station where
  files := fun _ => none
  binary := none
  stamp := none
  unstamped := false
  reads := []

abbrev exampleRuns (P : Station → Outcome PyError Bool → Station → Prop)
    (scripts : List (List (GuestChoice × ((op : LocalOp) → op.Reply)))) : Prop :=
  EachRun (stationStep List.flatten exampleConfig.inventory.remoteDir (.password "secret")
      (some "secret"))
    (ensureServiceBinary exampleSha256 exampleHost "src" "/tmp" exampleConfig) P untouched scripts

theorem unedited_second_run_is_current :
    exampleRuns (Current List.flatten "src")
      [List.replicate 110 (smooth []), List.replicate 30 (smooth [])] :=
  skipped_builds_are_current exampleSha256_injective exampleSha256_visible
    (fun _ written => nomatch (show none = some _ from written))
    ⟨by decide, by decide, trivial⟩

/-- `main.go` is edited while the first run compiles: its stamp names the new text, and
the second run skips the build with the binary of the old one. -/
theorem edited_during_compile_is_skipped :
    ¬ exampleRuns (Current List.flatten "src")
      [List.replicate 50 (smooth []) ++ List.replicate 60 (smooth [118]),
        List.replicate 30 (smooth [118])] := by
  rintro ⟨_, second, _⟩
  obtain ⟨tree, reads, binary⟩ := second (by decide)
  have fingerprinted : tree.contents = sourcesWith [118] :=
    (contents_of_reads reads).trans rfl
  have stale := Option.some.inj (binary.symm.trans (show _ = some [] by rfl))
  rw [fingerprinted] at stale
  exact nomatch stale

end VmDeploy.Service
