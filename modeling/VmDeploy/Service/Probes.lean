import VmDeploy.Service.Current

/-! How `ensure_service_binary` decides on guests where `sudo` asks for no password. -/

set_option autoImplicit false

open Effects Python Shell

namespace VmDeploy.Service

open Remote

inductive Presence where
  | absent
  | plain
  | executable
  deriving DecidableEq

/-- The two installed files of a guest, and every script it was sent. -/
structure Baked where
  stamp : Option String
  binary : Presence
  scripts : List Script

/-- What one request meets. A command that is not one of the probes and does not write the
stamp may do anything to both files. -/
structure BakedChoice where
  output : Event → Output
  stampAfter : Event → Option String
  binaryAfter : Event → Presence
  lost : Option String
  transfer : (op : RemoteOp) → op.Reply

section Guest

variable (remoteDir : String)

def BakedChoice.perform (x : BakedChoice) : Perform Baked
  | .opens who command, w => (x.output (.opens who command), w)
  | .runs who command, w =>
      let output := x.output (.runs who command)
      match actionOf remoteDir command with
      | .readStamp =>
          match w.stamp with
          | some stamp => (⟨0, stamp, ""⟩, w)
          | none => (⟨1, "", ""⟩, w)
      | .testBinary => (⟨if w.binary = .executable then 0 else 1, "", ""⟩, w)
      | .stamp digest =>
          (output, { w with
            stamp := if output.exitStatus = 0 then some digest else x.stampAfter (.runs who command) })
      | _ =>
          (output, { w with
            stamp := x.stampAfter (.runs who command), binary := x.binaryAfter (.runs who command) })

def readsStamp : Script :=
  .elevated .nonInteractive (catSourceHash remoteDir)

def testsBinary : Script :=
  .elevated .nonInteractive (testBinary remoteDir)

def bakedGuest : Environment Baked BakedChoice where
  perform x := x.perform remoteDir
  lost x := x.lost
  transfer x op w := (x.transfer op, w)

/-- The connection holds while the guest is probed, and may fail at any later request. -/
def bakedStep : Step remoteSignature Baked BakedChoice
  | x, .exec script stdin _, w =>
      let ran := (bakedGuest remoteDir).ran x .passwordless stdin script w
      let answer := if script = readsStamp remoteDir ∨ script = testsBinary remoteDir then none else x.lost
      (match answer with
        | some exc => .error exc
        | none => .ok ran.output, { ran.world with scripts := w.scripts ++ [script] })
  | _, .getenv _, w => (none, w)
  | x, op, w => (x.transfer op, w)

/-- The tree of sources stays as it is; the other local files do not. -/
def treeStep (sourceDir : String) (sources : String → Option Bytes) :
    Step localSignature Baked ((op : LocalOp) → op.Reply)
  | x, .isFile path, w =>
      (if path ∈ hashFiles.map (sourcePath sourceDir) then (sources path).isSome
        else x (.isFile path), w)
  | x, .readBytes path, w =>
      (match sources path with
        | some content => .ok content
        | none => x (.readBytes path), w)
  | x, op, w => (x op, w)

abbrev probeStep (sourceDir : String) (sources : String → Option Bytes) :
    Step (remoteSignature.sum localSignature) Baked (BakedChoice × ((op : LocalOp) → op.Reply)) :=
  (bakedStep remoteDir).sum (treeStep sourceDir sources)

end Guest

section Probes

variable {remoteDir sourceDir : String} {sources : String → Option Bytes} {host : RemoteHost}
  {w : Baked}

def Baked.sent (w : Baked) (script : Script) : Baked :=
  { w with scripts := w.scripts ++ [script] }

theorem ran_probe {line : Line} (single : Single line) {output : Output}
    (answers : ∀ x : BakedChoice, x.perform remoteDir (.runs .root line.head) w = (output, w))
    (x : BakedChoice) :
    (bakedGuest remoteDir).ran x .passwordless none (.elevated .nonInteractive line) w =
      ⟨output, [.runs .root line.head], w⟩ := by
  have authorised : Policy.authorises .nonInteractive none .passwordless = true := rfl
  rw [ran_single _ _ single, if_pos authorised, launch]
  simp only [bakedGuest, answers x]

theorem leads_probe {line : Line} (single : Single line) {output : Output}
    (probe : .elevated .nonInteractive line = readsStamp remoteDir ∨
      .elevated .nonInteractive line = testsBinary remoteDir)
    (answers : ∀ x : BakedChoice, x.perform remoteDir (.runs .root line.head) w = (output, w))
    (good : output.exitStatus = 0) :
    Leads (bakedStep remoteDir) (.done (.of (Script.elevated .nonInteractive line).text output))
      (w.sent (.elevated .nonInteractive line)) (host.sudo line false none) w := by
  refine .call fun x => ?_
  simp only [bakedStep, ran_probe single answers, if_pos probe, captured, Prog.bind, Bool.false_and,
    Bool.false_eq_true, if_false]
  rw [if_pos ((ok_of_iff _ _).mpr good)]
  exact .here

theorem leads_failing_probe {line : Line} (single : Single line) {output : Output}
    (probe : .elevated .nonInteractive line = readsStamp remoteDir ∨
      .elevated .nonInteractive line = testsBinary remoteDir)
    (answers : ∀ x : BakedChoice, x.perform remoteDir (.runs .root line.head) w = (output, w))
    (bad : output.exitStatus ≠ 0) :
    Leads (bakedStep remoteDir) (.raise sudoPassword.missingPassword)
      (w.sent (.elevated .nonInteractive line)) (host.sudo line false none) w := by
  refine .call fun x => ?_
  simp only [bakedStep, ran_probe single answers, if_pos probe, captured, Prog.bind, Bool.false_and,
    Bool.false_eq_true, if_false]
  rw [if_neg fun ok => bad ((ok_of_iff _ _).mp ok)]
  refine Leads.bind_raise ?_
  refine .call fun y => ?_
  exact .here

theorem perform_readStamp (x : BakedChoice) {stamp : String} (present : w.stamp = some stamp) :
    x.perform remoteDir (.runs .root (catSourceHash remoteDir).head) w = (⟨0, stamp, ""⟩, w) := by
  simp [BakedChoice.perform, present]

theorem perform_readStamp_absent (x : BakedChoice) (absent : w.stamp = none) :
    x.perform remoteDir (.runs .root (catSourceHash remoteDir).head) w = (⟨1, "", ""⟩, w) := by
  simp [BakedChoice.perform, absent]

theorem perform_testBinary (x : BakedChoice) :
    x.perform remoteDir (.runs .root (testBinary remoteDir).head) w =
      (⟨if w.binary = .executable then 0 else 1, "", ""⟩, w) := by
  simp [BakedChoice.perform]

theorem leads_installedSourceHash {stamp : String} (present : w.stamp = some stamp) :
    Leads (bakedStep remoteDir) (.done (stripped stamp)) (w.sent (readsStamp remoteDir))
      (installedSourceHash host remoteDir) w := by
  have reads : Leads (bakedStep remoteDir) _ _ (host.sudo (catSourceHash remoteDir) false none) w :=
    leads_probe ⟨rfl, rfl, rfl⟩ (.inl rfl) (fun x => perform_readStamp x present) rfl
  exact reads.bind .here

theorem leads_testBinary (runs : w.binary = .executable) :
    Leads (bakedStep remoteDir) (.done (.of (testsBinary remoteDir).text ⟨0, "", ""⟩))
      (w.sent (testsBinary remoteDir)) (host.sudo (testBinary remoteDir) false none) w := by
  have single : Single (testBinary remoteDir) := single_program _
  refine leads_probe single (.inr rfl) (fun x => ?_) rfl
  rw [perform_testBinary, if_pos runs]

theorem leads_failing_testBinary (fails : w.binary ≠ .executable) :
    Leads (bakedStep remoteDir) (.raise sudoPassword.missingPassword) (w.sent (testsBinary remoteDir))
      (host.sudo (testBinary remoteDir) false none) w := by
  have single : Single (testBinary remoteDir) := single_program _
  refine leads_failing_probe single (.inr rfl) (fun x => perform_testBinary x) ?_
  rw [if_neg fails]
  decide

end Probes

section Sources

variable {remoteDir sourceDir : String} {sources : String → Option Bytes} {w : Baked}

def contentsOf (sourceDir : String) (sources : String → Option Bytes) (names : List String) :
    Option (List Bytes) :=
  names.mapM fun name => sources (sourcePath sourceDir name)

theorem leads_isFile {name : String} (hashed : name ∈ hashFiles) :
    Leads (probeStep remoteDir sourceDir sources)
      (.done (sources (sourcePath sourceDir name)).isSome) w
      (askLocal (.isFile (sourcePath sourceDir name))) w := by
  refine .call fun x => ?_
  have inside : sourcePath sourceDir name ∈ hashFiles.map (sourcePath sourceDir) :=
    List.mem_map_of_mem hashed
  simp only [probeStep, Step.sum, treeStep, if_pos inside]
  exact .here

theorem leads_readSource {path : String} {content : Bytes} (present : sources path = some content) :
    Leads (probeStep remoteDir sourceDir sources) (.done content) w (readSource path) w := by
  refine .call fun x => ?_
  simp only [probeStep, Step.sum, treeStep, present]
  exact .here

-- Reading the tree gives its contents, or fails at the first file that is missing.
theorem leads_readSources {names : List String} (hashed : ∀ name ∈ names, name ∈ hashFiles) :
    (∀ contents, contentsOf sourceDir sources names = some contents →
      Leads (probeStep remoteDir sourceDir sources) (.done contents) w (readSources sourceDir names) w) ∧
    (contentsOf sourceDir sources names = none → ∃ error,
      Leads (probeStep remoteDir sourceDir sources) (.raise error) w (readSources sourceDir names) w) := by
  induction names with
  | nil =>
    refine ⟨fun contents whole => ?_, fun missing => by cases missing⟩
    cases whole
    exact .here
  | cons name names ih =>
    rw [List.forall_mem_cons] at hashed
    obtain ⟨whole, missing⟩ := ih hashed.2
    have asks : Leads (probeStep remoteDir sourceDir sources) _ w
        (askLocal (.isFile (sourcePath sourceDir name))) w := leads_isFile hashed.1
    cases present : sources (sourcePath sourceDir name) with
    | none =>
      have lacks : contentsOf sourceDir sources (name :: names) = none := by
        simp [contentsOf, present]
      rw [lacks]
      refine ⟨nofun, fun _ => ⟨.vmDeployError s!"Go service source missing from {sourceDir}: {name}", ?_⟩⟩
      rw [present] at asks
      exact asks.bind .here
    | some content =>
      rw [present] at asks
      have reads : Leads (probeStep remoteDir sourceDir sources) (.done content) w
          (readSource (sourcePath sourceDir name)) w :=
        leads_readSource present
      have both : contentsOf sourceDir sources (name :: names) =
          (contentsOf sourceDir sources names).map (content :: ·) := by
        rw [contentsOf, List.mapM_cons, present, Option.map_eq_bind]
        rfl
      rw [both]
      constructor
      · intro contents all
        obtain ⟨rest, found, rfl⟩ := Option.map_eq_some_iff.mp all
        exact asks.bind (reads.bind ((whole rest found).bind .here))
      · intro lacks
        obtain ⟨error, raises⟩ := missing (Option.map_eq_none_iff.mp lacks)
        exact ⟨error, asks.bind (reads.bind raises.bind_raise)⟩

end Sources

section Decision

variable (sha256 : Bytes → Bytes) (host : RemoteHost) (sourceDir cacheDir : String)
  (config : ClusterConfig) (sources : String → Option Bytes)

def treeHash : Option String :=
  (contentsOf sourceDir sources hashFiles).map (fingerprint sha256)

/-- The binary can be run and the stamp, trimmed, is the fingerprint of the tree. -/
def UpToDate (w : Baked) : Prop :=
  w.binary = .executable ∧ ∃ stamp, w.stamp = some stamp ∧
    treeHash sha256 sourceDir sources = some (stripped stamp)

def recompile : ServiceProg Bool :=
  (installGo cacheDir host config.build).bind fun _ =>
    (buildService sha256 host sourceDir config.inventory.remoteDir).bind fun _ => .done true

def Baked.probed (remoteDir : String) (w : Baked) : Baked :=
  (w.sent (readsStamp remoteDir)).sent (testsBinary remoteDir)

abbrev Answers :=
  BakedChoice × ((op : LocalOp) → op.Reply)

def ensureRun (w : Baked) (script : List Answers) : Outcome PyError Bool × Baked :=
  (ensureServiceBinary sha256 host sourceDir cacheDir config).eval
    (probeStep config.inventory.remoteDir sourceDir sources) w script

def compileRun (w : Baked) (script : List Answers) : Outcome PyError Bool × Baked :=
  (recompile sha256 host sourceDir cacheDir config).eval
    (probeStep config.inventory.remoteDir sourceDir sources) w script

def Keeps (w : Baked) : Prop :=
  ∀ script, (ensureRun sha256 host sourceDir cacheDir config sources w script).1 = .stopped ∨
    ensureRun sha256 host sourceDir cacheDir config sources w script =
      (.returned false, w.probed config.inventory.remoteDir)

/-- Once the guest is probed, every run is a run of the compilation, which returns nothing but
`True` and leaves the stamp of the tree. -/
def Compiles (w : Baked) : Prop :=
  (∀ script, (ensureRun sha256 host sourceDir cacheDir config sources w script).1 = .stopped ∨
    ∃ rest, ensureRun sha256 host sourceDir cacheDir config sources w script =
      compileRun sha256 host sourceDir cacheDir config sources (w.probed config.inventory.remoteDir)
        rest) ∧
  ∀ rest value,
    (compileRun sha256 host sourceDir cacheDir config sources (w.probed config.inventory.remoteDir)
      rest).1 = .returned value →
    value = true ∧
      (compileRun sha256 host sourceDir cacheDir config sources (w.probed config.inventory.remoteDir)
        rest).2.stamp = treeHash sha256 sourceDir sources

def Decides (w : Baked) : Prop :=
  (UpToDate sha256 sourceDir sources w → Keeps sha256 host sourceDir cacheDir config sources w) ∧
  (¬ UpToDate sha256 sourceDir sources w → Compiles sha256 host sourceDir cacheDir config sources w)

end Decision

section Runs

variable {sha256 : Bytes → Bytes} {host : RemoteHost} {sourceDir cacheDir : String}
  {config : ClusterConfig} {sources : String → Option Bytes} {w : Baked}

theorem leads_sourceHash {digest : String} {remoteDir : String}
    (whole : treeHash sha256 sourceDir sources = some digest) :
    Leads (probeStep remoteDir sourceDir sources) (.done digest) w (sourceHash sha256 sourceDir) w := by
  obtain ⟨contents, found, rfl⟩ := Option.map_eq_some_iff.mp whole
  exact ((leads_readSources fun _ member => member).1 contents found).bind .here

-- Where the tree is whole and both probes succeed, the run is decided by their answers.
theorem leads_ensure {digest stamp : String} (whole : treeHash sha256 sourceDir sources = some digest)
    (present : w.stamp = some stamp) (runs : w.binary = .executable) :
    Leads (probeStep config.inventory.remoteDir sourceDir sources)
      (if stripped stamp = digest then .done false else recompile sha256 host sourceDir cacheDir config)
      (w.probed config.inventory.remoteDir)
      (ensureServiceBinary sha256 host sourceDir cacheDir config) w := by
  have installed : Leads (probeStep config.inventory.remoteDir sourceDir sources) _ _
      (onGuest (installedSourceHash host config.inventory.remoteDir)) w :=
    (leads_installedSourceHash present).liftLeft
  have tests : Leads (probeStep config.inventory.remoteDir sourceDir sources) _ _
      (onGuest (host.sudo (testBinary config.inventory.remoteDir) false none))
      (w.sent (readsStamp config.inventory.remoteDir)) :=
    (show Leads (bakedStep config.inventory.remoteDir) _ _ _
      (w.sent (readsStamp config.inventory.remoteDir)) from leads_testBinary runs).liftLeft
  refine (leads_sourceHash whole).bind (installed.bind (tests.bind ?_))
  by_cases same : stripped stamp = digest
  · rw [if_pos same]
    simp only [CommandResult.ok, CommandResult.of, same]
    exact .here
  · rw [if_neg same]
    simp only [CommandResult.ok, CommandResult.of, same]
    exact .here

-- A missing file ends the run before the guest is asked anything.
theorem leads_ensure_partial (broken : treeHash sha256 sourceDir sources = none) :
    ∃ error, Leads (probeStep config.inventory.remoteDir sourceDir sources) (.raise error) w
      (ensureServiceBinary sha256 host sourceDir cacheDir config) w := by
  obtain ⟨error, raises⟩ := (leads_readSources (fun _ member => member)).2
    (Option.map_eq_none_iff.mp broken)
  exact ⟨error, (raises.bind_raise).bind_raise⟩

theorem leads_ensure_unstamped {digest : String}
    (whole : treeHash sha256 sourceDir sources = some digest) (absent : w.stamp = none) :
    Leads (probeStep config.inventory.remoteDir sourceDir sources)
      (.raise sudoPassword.missingPassword) (w.sent (readsStamp config.inventory.remoteDir))
      (ensureServiceBinary sha256 host sourceDir cacheDir config) w := by
  have reads : Leads (bakedStep config.inventory.remoteDir) (.raise sudoPassword.missingPassword)
      (w.sent (readsStamp config.inventory.remoteDir))
      (host.sudo (catSourceHash config.inventory.remoteDir) false none) w :=
    leads_failing_probe ⟨rfl, rfl, rfl⟩ (.inl rfl) (fun x => perform_readStamp_absent x absent)
      (by decide)
  have installed : Leads (probeStep config.inventory.remoteDir sourceDir sources)
      (.raise sudoPassword.missingPassword) _
      (onGuest (installedSourceHash host config.inventory.remoteDir)) w :=
    reads.bind_raise.liftLeft
  exact (leads_sourceHash whole).bind installed.bind_raise

theorem leads_ensure_unrunnable {digest stamp : String}
    (whole : treeHash sha256 sourceDir sources = some digest) (present : w.stamp = some stamp)
    (fails : w.binary ≠ .executable) :
    Leads (probeStep config.inventory.remoteDir sourceDir sources)
      (.raise sudoPassword.missingPassword) (w.probed config.inventory.remoteDir)
      (ensureServiceBinary sha256 host sourceDir cacheDir config) w := by
  have installed : Leads (probeStep config.inventory.remoteDir sourceDir sources) _ _
      (onGuest (installedSourceHash host config.inventory.remoteDir)) w :=
    (leads_installedSourceHash present).liftLeft
  have refuses : Leads (bakedStep config.inventory.remoteDir) (.raise sudoPassword.missingPassword)
      (w.probed config.inventory.remoteDir)
      (host.sudo (testBinary config.inventory.remoteDir) false none)
      (w.sent (readsStamp config.inventory.remoteDir)) :=
    leads_failing_testBinary fails
  have tests : Leads (probeStep config.inventory.remoteDir sourceDir sources)
      (.raise sudoPassword.missingPassword) _
      (onGuest (host.sudo (testBinary config.inventory.remoteDir) false none))
      (w.sent (readsStamp config.inventory.remoteDir)) :=
    refuses.liftLeft
  exact (leads_sourceHash whole).bind (installed.bind tests.bind_raise)

-- Scripts are only added, and the first request adds one.
theorem recompile_grows (before : Baked) :
    Always (probeStep config.inventory.remoteDir sourceDir sources)
      (recompile sha256 host sourceDir cacheDir config) before
      (fun outcome after => (outcome = .stopped ∧ after = before) ∨
        before.scripts.length < after.scripts.length) := by
  refine always_call (.inl ⟨rfl, rfl⟩) fun x => ?_
  have grows : ∀ (p : ServiceProg Bool) (start : Baked),
      Always (probeStep config.inventory.remoteDir sourceDir sources) p start
        (fun _ after => start.scripts.length ≤ after.scripts.length) := by
    intro p start
    refine always_only (fun start after => start.scripts.length ≤ after.scripts.length) start
      (Prog.only_true p) (fun _ => Nat.le_refl _) (fun _ _ _ => Nat.le_trans) ?_
    intro y op later _
    cases op with
    | inl op => cases op <;> simp [probeStep, Step.sum, bakedStep]
    | inr op => cases op <;> simp [probeStep, Step.sum, treeStep]
  refine Always.mono (grows _ _) fun _ after more => .inr ?_
  refine Nat.lt_of_lt_of_le ?_ more
  simp [probeStep, Step.sum, bakedStep]

theorem ends_writeStamp (digest : String) (before : Baked) {remoteDir : String} :
    Always (probeStep remoteDir sourceDir sources)
      (onGuest (host.sudo (writeStamp remoteDir digest) true none)) before
      (Ends (fun _ => True) fun _ after => after.stamp = some digest) := by
  have single : Single (writeStamp remoteDir digest) := single_program _
  have authorised : Policy.authorises .nonInteractive none .passwordless = true := rfl
  have other : ¬ (Script.elevated .nonInteractive (writeStamp remoteDir digest) = readsStamp remoteDir ∨
      Script.elevated .nonInteractive (writeStamp remoteDir digest) = testsBinary remoteDir) := by
    simp [readsStamp, testsBinary, writeStamp, catSourceHash, testBinary, program]
  refine always_liftLeft (always_call trivial fun x => ?_)
  simp only [bakedStep, if_neg other, ran_single _ _ single, if_pos authorised, launch]
  cases x.lost with
  | some exc => exact always_raise trivial
  | none =>
    simp only [captured, Prog.bind, Bool.false_and, Bool.false_eq_true, if_false]
    split
    · next ok =>
      refine always_done ?_
      have exited := (ok_of_iff _ _).mp ok
      simp only [bakedGuest, BakedChoice.perform, action_writeStamp] at exited ⊢
      simp only [Ends, if_pos exited]
    · refine always_call trivial fun y => ?_
      exact always_raise trivial

theorem ends_buildService {digest remoteDir : String}
    (whole : treeHash sha256 sourceDir sources = some digest) (before : Baked) :
    Always (probeStep remoteDir sourceDir sources) (buildService sha256 host sourceDir remoteDir) before
      (Ends (fun _ => True) fun _ after => after.stamp = some digest) := by
  refine ends_bind ends_any fun _ before _ => ?_
  refine ends_bind ends_any fun _ before _ => ?_
  refine ends_bind ends_any fun _ before _ => ?_
  refine ends_bind ends_any fun _ before _ => ?_
  refine ends_bind ends_any fun _ before _ => ?_
  refine ends_bind ends_any fun _ before _ => ?_
  refine ends_bind ends_any fun _ before _ => ?_
  refine ends_bind ends_any fun _ before _ => ?_
  have hashes : Always (probeStep remoteDir sourceDir sources) (sourceHash sha256 sourceDir) before
      (Ends (fun _ => True) fun found _ => found = digest) :=
    (leads_sourceHash whole).always (fun _ => trivial) (always_done rfl)
  refine ends_bind hashes ?_
  rintro _ before rfl
  exact ends_bind (ends_writeStamp _ before) fun _ _ stamped => always_done stamped

theorem ends_recompile {digest : String} (whole : treeHash sha256 sourceDir sources = some digest)
    (before : Baked) :
    Always (probeStep config.inventory.remoteDir sourceDir sources)
      (recompile sha256 host sourceDir cacheDir config) before
      (Ends (fun _ => True) fun value after => value = true ∧ after.stamp = some digest) := by
  refine ends_bind ends_any fun _ before _ => ?_
  exact ends_bind (ends_buildService whole before) fun _ _ stamped => always_done ⟨rfl, stamped⟩

def quiet : Answers where
  fst :=
    { output := fun _ => ⟨0, "", ""⟩
      stampAfter := fun _ => none
      binaryAfter := fun _ => .absent
      lost := none
      transfer
        | .exec _ _ _ => .error ""
        | .openSftp => .ok ()
        | .sftpWrite _ _ => .ok ()
        | .sftpPut _ _ => .ok ()
        | .urandom _ => []
        | .getenv _ => none }
  snd
    | .isFile _ => false
    | .readBytes _ => .error ""
    | .sha256File _ => .error ""
    | .mkdirParents _ => .ok ()
    | .download _ _ => .ok ()
    | .unlink _ => .ok ()

-- A run that ends in an error after no more than the probes is no run of the compilation.
theorem not_decides {error : PyError} {last : Baked} (answers : Answers)
    (leads : Leads (probeStep config.inventory.remoteDir sourceDir sources) (.raise error) last
      (ensureServiceBinary sha256 host sourceDir cacheDir config) w)
    (few : last.scripts.length ≤ (w.probed config.inventory.remoteDir).scripts.length) :
    ¬ Decides sha256 host sourceDir cacheDir config sources w := by
  obtain ⟨script, raised⟩ := leads.exists_eval answers []
  have run : ensureRun sha256 host sourceDir cacheDir config sources w script =
      (.raised error, last) := raised
  rintro ⟨keeps, compiles⟩
  by_cases current : UpToDate sha256 sourceDir sources w
  · rcases keeps current script with stopped | returned
    · rw [run] at stopped
      cases stopped
    · rw [run] at returned
      cases (Prod.mk.inj returned).1
  · rcases (compiles current).1 script with stopped | ⟨rest, same⟩
    · rw [run] at stopped
      cases stopped
    · have grown : ((compileRun sha256 host sourceDir cacheDir config sources
          (w.probed config.inventory.remoteDir) rest).1 = .stopped ∧ _) ∨ _ :=
        recompile_grows (w.probed config.inventory.remoteDir) rest
      rcases grown with ⟨stopped, -⟩ | more
      · rw [← same, run] at stopped
        cases stopped
      · have ended : (compileRun sha256 host sourceDir cacheDir config sources
            (w.probed config.inventory.remoteDir) rest).2 = last := by rw [← same, run]
        rw [show ((recompile sha256 host sourceDir cacheDir config).eval _ _ rest).2 = last from ended]
          at more
        omega

-- With a stamp and a binary that can be run the answers decide.
theorem decides_of_probed {digest stamp : String}
    (whole : treeHash sha256 sourceDir sources = some digest)
    (present : w.stamp = some stamp) (runs : w.binary = .executable) :
    Decides sha256 host sourceDir cacheDir config sources w := by
  have leads : Leads (probeStep config.inventory.remoteDir sourceDir sources) _ _
      (ensureServiceBinary sha256 host sourceDir cacheDir config) w := leads_ensure whole present runs
  have current : UpToDate sha256 sourceDir sources w ↔ stripped stamp = digest := by
    unfold UpToDate
    rw [whole, present]
    simp [runs, eq_comm]
  unfold Decides
  rw [current]
  constructor
  · intro same
    rw [if_pos same] at leads
    intro script
    exact (leads.eval script).imp_right fun ⟨rest, run⟩ => run
  · intro other
    rw [if_neg other] at leads
    refine ⟨leads.eval, fun rest value returned => ?_⟩
    have ended : Ends (fun _ => True) (fun value after => value = true ∧ after.stamp = some digest)
        (compileRun sha256 host sourceDir cacheDir config sources _ rest).1
        (compileRun sha256 host sourceDir cacheDir config sources _ rest).2 :=
      ends_recompile whole (w.probed config.inventory.remoteDir) rest
    rw [returned] at ended
    rw [whole]
    exact ended

end Runs

/-- The service is compiled exactly where it has to be just on guests with a stamp and a binary
that can be run, for a tree that is whole. -/
theorem ensure_service_binary_decides_iff (sha256 : Bytes → Bytes) (host : RemoteHost)
    (sourceDir cacheDir : String) (config : ClusterConfig) (sources : String → Option Bytes)
    (w : Baked) :
    Decides sha256 host sourceDir cacheDir config sources w ↔
      contentsOf sourceDir sources hashFiles ≠ none ∧ w.stamp ≠ none ∧ w.binary = .executable := by
  have hashed : contentsOf sourceDir sources hashFiles ≠ none ↔ treeHash sha256 sourceDir sources ≠ none :=
    not_congr Option.map_eq_none_iff.symm
  rw [hashed]
  constructor
  · intro decides
    cases whole : treeHash sha256 sourceDir sources with
    | none =>
      obtain ⟨error, leads⟩ : ∃ error, Leads (probeStep config.inventory.remoteDir sourceDir sources)
          (.raise error) w (ensureServiceBinary sha256 host sourceDir cacheDir config) w :=
        leads_ensure_partial whole
      exact absurd decides (not_decides quiet leads (by simp [Baked.probed, Baked.sent]))
    | some digest =>
      cases present : w.stamp with
      | none =>
        refine absurd decides (not_decides quiet (leads_ensure_unstamped whole present) ?_)
        simp [Baked.probed, Baked.sent]
      | some stamp =>
        refine ⟨nofun, nofun, ?_⟩
        by_contra fails
        exact absurd decides
          (not_decides quiet (leads_ensure_unrunnable whole present fails) (Nat.le_refl _))
  · rintro ⟨whole, present, runs⟩
    obtain ⟨digest, whole⟩ := Option.ne_none_iff_exists'.mp whole
    obtain ⟨stamp, present⟩ := Option.ne_none_iff_exists'.mp present
    exact decides_of_probed whole present runs

theorem unstamped_binary_is_not_compiled :
    ¬ Decides exampleSha256 exampleHost "src" "cache" exampleConfig (fun _ => some [])
      ⟨none, .executable, []⟩ := by
  obtain ⟨digest, whole⟩ : ∃ digest, treeHash exampleSha256 "src" (fun _ => some []) = some digest :=
    ⟨_, rfl⟩
  exact not_decides quiet (leads_ensure_unstamped whole rfl) (by decide)

end VmDeploy.Service
