import VmDeploy.Service.Station

/-! What each part of a build does to the station. -/

set_option autoImplicit false

open Effects Python Shell

namespace VmDeploy.Service

open Remote

def Station.Reads (before : Station) (more : List (String × Bytes)) (after : Station) : Prop :=
  before.SameInstall after ∧ after.reads = before.reads ++ more

theorem Station.Reads.refl (station : Station) : station.Reads [] station :=
  ⟨⟨rfl, rfl, rfl⟩, (List.append_nil _).symm⟩

theorem Station.Reads.trans {first second third : Station} {more later : List (String × Bytes)}
    (reads : first.Reads more second) (next : second.Reads later third) :
    first.Reads (more ++ later) third := by
  obtain ⟨⟨binary, stamp, unstamped⟩, read⟩ := reads
  obtain ⟨⟨binary', stamp', unstamped'⟩, read'⟩ := next
  refine ⟨⟨binary'.trans binary, stamp'.trans stamp, unstamped'.trans unstamped⟩, ?_⟩
  rw [read', read, List.append_assoc]

theorem Station.Reads.still {first second third : Station} {more : List (String × Bytes)}
    (reads : first.Reads more second) (next : second.Reads [] third) : first.Reads more third := by
  simpa using reads.trans next

variable {compile : List Bytes → Bytes} {remoteDir : String} {policy : Policy}
  {env : Option String} {host : RemoteHost} {station : Station}

def Sends (P : Simple → Prop) (Q : Prop) : RemoteOp → Prop
  | .exec script _ _ => ∀ command ∈ script.line.commands, P command
  | .sftpWrite _ _ | .sftpPut _ _ => Q
  | _ => True

def Action.idle : Action → Bool
  | .readStamp | .testBinary | .other => true
  | _ => false

theorem act_idle (x : GuestChoice) (output : Output) {action : Action}
    (idle : action.idle = true) : (station.act compile x output action).2 = station := by
  cases action with
  | readStamp | testBinary | other =>
    simp only [Station.act]
    repeat (first | rfl | split)
  | _ => cases idle

theorem perform_idle (x : GuestChoice) {command : Simple}
    (idle : (actionOf remoteDir command).idle = true) (who : Privilege) :
    (x.perform compile remoteDir (.runs who command) station).2 = station :=
  act_idle _ _ idle

theorem perform_harmless (x : GuestChoice) {command : Simple}
    (harmless : (actionOf remoteDir command).installs = false) (who : Privilege) :
    station.Reads [] (x.perform compile remoteDir (.runs who command) station).2 :=
  ⟨act_sameInstall _ _ _ _ harmless, by
    rw [List.append_nil]
    exact act_reads _ _ _ _ _⟩

abbrev Harmless (remoteDir : String) : (remoteSignature.sum localSignature).Op → Prop :=
  Sum.elim (Sends (fun command => (actionOf remoteDir command).installs = false) True)
    (fun op => ∀ path, op ≠ .readBytes path)

theorem upholds_harmless {A : Type} {p : ServiceProg A} (only : p.Only (Harmless remoteDir))
    (station : Station) :
    Upholds (stationStep compile remoteDir policy env) p station (station.Reads [])
      (fun _ _ => True) := by
  refine upholds_only only (.refl station) ?_
  rintro ⟨x, y⟩ op w harmless held
  refine held.still ?_
  cases op with
  | inl op =>
    cases op with
    | exec script stdin timeout =>
      exact script_keeps (w.Reads []) (fun _ _ _ _ here => here)
        (fun who command member _ here => here.still (perform_harmless x (harmless command member) who))
        (.refl w)
    | _ => exact ⟨⟨rfl, rfl, rfl⟩, (List.append_nil _).symm⟩
  | inr op =>
    cases op with
    | readBytes path => exact absurd rfl (harmless path)
    | _ => exact .refl w

abbrev Idle (remoteDir : String) : (remoteSignature.sum localSignature).Op → Prop :=
  Sum.elim (Sends (fun command => (actionOf remoteDir command).idle = true) False)
    (fun op => ∀ path, op ≠ .readBytes path)

theorem upholds_idle {A : Type} {p : ServiceProg A} (only : p.Only (Idle remoteDir))
    (station : Station) :
    Upholds (stationStep compile remoteDir policy env) p station (· = station)
      (fun _ _ => True) := by
  refine upholds_only only rfl ?_
  rintro ⟨x, y⟩ op w idle rfl
  cases op with
  | inl op =>
    cases op with
    | exec script stdin timeout =>
      refine script_keeps (· = w) (fun _ _ _ _ here => here) ?_ rfl
      rintro who command member w rfl
      exact perform_idle x (idle command member) who
    | sftpWrite | sftpPut => exact idle.elim
    | _ => rfl
  | inr op =>
    cases op with
    | readBytes path => exact absurd rfl (idle path)
    | _ => rfl

section Toolchain

variable (cacheDir : String) (build : BuildConfig)

theorem runs_harmless {line : Line} {check : Bool} {timeout : Option Nat}
    (harmless : ∀ command ∈ line.commands, (actionOf remoteDir command).installs = false) :
    (onGuest (host.run (.plain line) check timeout)).Only (Harmless remoteDir) :=
  Prog.only_liftLeft (I := remoteSignature) (run_only fun _ => harmless)

theorem installGo_harmless : (installGo cacheDir host build).Only (Harmless remoteDir) := by
  refine Prog.Only.bind (runs_harmless ?_) fun current => ?_
  · simp [Line.commands, goVersionLine, actionOf, goBuild, Action.installs]
  split
  · trivial
  · refine Prog.Only.bind (fetchGoArchiveToHost_only cacheDir build fun _ other => other)
      fun localArchive => ?_
    refine Prog.Only.bind (uploadArchive_only trivial trivial) fun _ => ?_
    refine Prog.Only.bind (runs_harmless ?_) fun check => ?_
    · simp [Line.commands, checksumLine, actionOf, goBuild, Action.installs]
    split
    · refine Prog.Only.bind (runs_harmless ?_) fun _ => trivial
      simp [Line.commands, program, actionOf, Action.installs]
    · have unpacks : (onGuest (sudoAll host (unpackGo s!"/tmp/{archiveName build}"))).Only
          (Harmless remoteDir) := by
        refine Prog.only_liftLeft (I := remoteSignature) (sudoAll_only trivial ?_)
        simp [unpackGo, Sends, Script.line, Line.commands, program, actionOf, goBuild, Action.installs]
      refine Prog.Only.bind unpacks fun _ => ?_
      refine Prog.Only.bind (runs_harmless ?_) fun _ => ?_
      · simp [Line.commands, program, actionOf, Action.installs]
      refine Prog.Only.bind (runs_harmless ?_) fun version => ?_
      · simp [Line.commands, program, actionOf, goBuild, Action.installs]
      split <;> trivial

end Toolchain

theorem missingSources_idle (sourceDir : String) (names : List String) :
    (missingSources sourceDir names).Only (Idle remoteDir) := by
  induction names with
  | nil => trivial
  | cons name names ih =>
    refine Prog.Only.bind ⟨nofun, fun _ => trivial⟩ fun present => ?_
    exact Prog.Only.bind ih fun missing => trivial

theorem requireSources_idle (sourceDir : String) :
    (requireSources sourceDir).Only (Idle remoteDir) := by
  refine Prog.Only.bind (missingSources_idle sourceDir sourceFiles) fun missing => ?_
  split
  · trivial
  · refine Prog.Only.bind ⟨nofun, fun _ => trivial⟩ fun present => ?_
    split <;> trivial

theorem sudo_idle {line : Line} {check : Bool} {timeout : Option Nat} (alone : line.tail = [])
    (idle : (actionOf remoteDir line.head).idle = true) :
    (onGuest (host.sudo line check timeout)).Only (Idle remoteDir) := by
  refine Prog.only_liftLeft (I := remoteSignature) (sudo_only trivial fun _ _ _ command member => ?_)
  rw [Script.line, Line.commands, alone] at member
  rw [List.mem_singleton.mp member]
  exact idle

def readsOf (sourceDir : String) (names : List String) (contents : List Bytes) :
    List (String × Bytes) :=
  (names.map (sourcePath sourceDir)).zip contents

theorem Station.reads_read (station : Station) (path : String) (content : Bytes) :
    station.Reads [(path, content)] { station with reads := station.reads ++ [(path, content)] } :=
  ⟨⟨rfl, rfl, rfl⟩, rfl⟩

theorem upholds_readSource {path : String} :
    Upholds (stationStep compile remoteDir policy env) (readSource path) station
      (fun after => ∃ more, station.Reads more after)
      (fun content after => after = { station with reads := station.reads ++ [(path, content)] }) := by
  refine upholds_call ⟨_, .refl station⟩ ?_
  rintro ⟨x, y⟩
  change Upholds _ (orOsError (y (.readBytes path))) (station.record path (y (.readBytes path))) _ _
  cases y (.readBytes path) with
  | error message => exact upholds_raise ⟨_, .refl station⟩
  | ok content => exact upholds_done ⟨_, station.reads_read path content⟩ rfl

theorem upholds_readSources (sourceDir : String) (names : List String) (station : Station) :
    Upholds (stationStep compile remoteDir policy env) (readSources sourceDir names) station
      (fun after => ∃ more, station.Reads more after)
      (fun contents after => contents.length = names.length ∧
        after = { station with reads := station.reads ++ readsOf sourceDir names contents }) := by
  induction names generalizing station with
  | nil => exact upholds_done ⟨_, .refl station⟩ ⟨rfl, by simp [readsOf]⟩
  | cons name names ih =>
    refine upholds_call ⟨_, .refl station⟩ ?_
    rintro ⟨x, y⟩
    change Upholds _ (if y (.isFile (sourcePath sourceDir name)) = true then _ else _) station _ _
    split
    · refine upholds_bind upholds_readSource ?_
      rintro content _ ⟨_, first⟩ rfl
      have later := ih { station with
        reads := station.reads ++ [(sourcePath sourceDir name, content)] }
      refine upholds_bind (later.mono ?_ fun _ _ _ returned => returned) ?_
      · rintro after ⟨more, reads⟩
        exact ⟨_, (station.reads_read _ _).trans reads⟩
      · rintro contents _ kept ⟨complete, rfl⟩
        refine upholds_done kept ⟨congrArg (· + 1) complete, ?_⟩
        simp [readsOf]
    · exact upholds_raise ⟨_, .refl station⟩

theorem toList_buildPath (name : String) :
    (buildPath name).toList = "/tmp/vmdeploy-".toList ++ 'g' :: ("oservice/".toList ++ name.toList) := by
  have text : buildPath name = "/tmp/vmdeploy-goservice" ++ "/" ++ name := rfl
  simp [text]

theorem buildPath_injective : Function.Injective buildPath := by
  intro first second same
  have texts := congrArg String.toList same
  exact String.toList_inj.mp (by simpa [toList_buildPath] using texts)

-- The build directory's name goes on with a letter that is no hexadecimal digit.
theorem staging_ne_buildPath (random : List UInt8) (name : String) :
    stagingPath random ≠ buildPath name := by
  intro same
  have texts := congrArg String.toList same
  rw [toList_buildPath, stagingPath, String.toList_append, List.append_cancel_left_eq] at texts
  have letter : 'g' ∈ (hex random).toList := by
    rw [texts]
    exact List.mem_cons_self
  exact hex_forall (P := (· ≠ 'g')) (by decide) random 'g' letter rfl

@[simp] theorem put_files_self (station : Station) (path : String) (content : Option Bytes) :
    (station.put path content).files path = content := by
  simp [Station.put]

theorem put_files_of_ne {path other : String} (content : Option Bytes) (differs : other ≠ path) :
    (station.put path content).files other = station.files other := by
  simp [Station.put, differs]

/-- Nothing is installed or read, and only this file of the build directory may have changed. -/
def Station.Writes (before : Station) (name : String) (after : Station) : Prop :=
  before.Reads [] after ∧
    ∀ other, other ≠ name → after.files (buildPath other) = before.files (buildPath other)

theorem Station.Writes.put {before after : Station} {name : String}
    (writes : before.Writes name after) {path : String} (content : Option Bytes)
    (free : ∀ other, other ≠ name → path ≠ buildPath other) :
    before.Writes name (after.put path content) := by
  refine ⟨writes.1, fun other differs => ?_⟩
  rw [put_files_of_ne content (free other differs).symm]
  exact writes.2 other differs

-- The staged payload is moved into place and the staging file removed.
theorem upholds_moveStaged {before : Station} {payload : Bytes} {name : String} {random : List UInt8}
    (mode : String) (writes : before.Writes name station)
    (staged : station.files (stagingPath random) = some payload) :
    Upholds ((stationGuest compile remoteDir).step policy env)
      ((host.sudo (program ["install", "-D", "-m", mode, stagingPath random, buildPath name])
          true none).bind fun _ =>
        (host.run (.plain (program ["rm", "-f", stagingPath random])) false none).bind fun _ =>
          .done ())
      station (before.Writes name) (fun _ after => after.files (buildPath name) = some payload) := by
  have other := staging_ne_buildPath random
  have copies : Upholds ((stationGuest compile remoteDir).step policy env)
      (host.sudo (program ["install", "-D", "-m", mode, stagingPath random, buildPath name]) true none)
      station
      (fun after => before.Writes name after ∧ after.files (stagingPath random) = some payload)
      (fun _ after => after.files (buildPath name) = some payload) := by
    have copied : ∀ (x : GuestChoice) (after : Station),
        before.Writes name after ∧ after.files (stagingPath random) = some payload →
        let result := x.perform compile remoteDir (.runs .root
          (program ["install", "-D", "-m", mode, stagingPath random, buildPath name]).head) after
        (before.Writes name result.2 ∧ result.2.files (stagingPath random) = some payload) ∧
          (result.1.exitStatus = 0 → result.2.files (buildPath name) = some payload) := by
      rintro x after ⟨here, kept⟩
      have place : ∀ content, before.Writes name (after.put (buildPath name) content) ∧
          (after.put (buildPath name) content).files (stagingPath random) = some payload := by
        intro content
        refine ⟨here.put content fun rest differs => buildPath_injective.ne differs.symm, ?_⟩
        rw [put_files_of_ne content (other name)]
        exact kept
      simp only [GuestChoice.perform, action_putBytes, Station.act, kept]
      split
      · exact ⟨place _, fun _ => put_files_self _ _ _⟩
      · next bad => exact ⟨place _, fun good => absurd good bad⟩
    refine upholds_sudo_single (single_program _) ⟨writes, staged⟩ (fun x w held => (copied x w held).1)
      (fun unchecked => absurd unchecked (by decide)) ?_
    exact fun _ x w held checked => (copied x w held).2 (checked rfl)
  refine upholds_bind (copies.mono (fun _ held => held.1) fun _ _ _ placed => placed) ?_
  intro _ placed kept content
  have removes : Upholds ((stationGuest compile remoteDir).step policy env)
      (host.run (.plain (program ["rm", "-f", stagingPath random])) false none) placed
      (fun after => before.Writes name after ∧ after.files (buildPath name) = some payload)
      (fun _ _ => True) := by
    refine upholds_run ⟨kept, content⟩ (fun x => ?_) (fun _ _ => trivial)
    rw [ran_plain _ _ (single_program _)]
    simp only [launch, stationGuest, GuestChoice.perform, program, actionOf, Station.act]
    split
    · refine ⟨kept.put _ fun rest _ => other rest, ?_⟩
      rw [put_files_of_ne _ (other name).symm]
      exact content
    · exact ⟨kept, content⟩
  refine upholds_bind (removes.mono (fun _ held => held.1) fun _ _ held _ => held.2) ?_
  exact fun _ _ kept content => upholds_done kept content

theorem upholds_openSftp :
    Upholds ((stationGuest compile remoteDir).step policy env) host.openSftp station (· = station)
      (fun _ _ => True) := by
  refine upholds_call rfl fun x => ?_
  change Upholds _ (Prog.bind (.done x.transfer) _) station _ _
  cases x.transfer with
  | error exc => exact upholds_raise rfl
  | ok _ => exact upholds_done rfl trivial

theorem upholds_putBytes (payload : Bytes) (name : String) (mode : Nat) :
    Upholds (stationStep compile remoteDir policy env)
      (onGuest (host.putBytes payload (buildPath name) mode)) station (station.Writes name)
      (fun _ after => after.files (buildPath name) = some payload) := by
  refine always_liftLeft ?_
  have here : station.Writes name station := ⟨.refl station, fun _ _ => rfl⟩
  refine upholds_call here fun x => ?_
  change Upholds _ (host.openSftp.bind _) station _ _
  refine upholds_bind (upholds_openSftp.mono (fun _ same => same ▸ here) fun _ _ same _ => same) ?_
  rintro _ station _ rfl
  refine upholds_call here fun y => ?_
  have written : ∀ content, station.Writes name (station.put (stagingPath x.random) content) :=
    fun content => here.put content fun other _ => staging_ne_buildPath x.random other
  change Upholds _ (Prog.bind (.done y.transfer) _) (station.put (stagingPath x.random)
    (if y.transfer.isOk then some payload else y.debris)) _ _
  cases y.transfer with
  | error exc => exact upholds_raise (written _)
  | ok _ => exact upholds_moveStaged _ (written _) (put_files_self _ _ _)

theorem upholds_uploadSources (sourceDir : String) {names : List String} (distinct : names.Nodup)
    (station : Station) :
    Upholds (stationStep compile remoteDir policy env) (uploadSources host sourceDir names) station
      (fun after => ∃ more, station.Reads more after)
      (fun _ after => ∃ contents, contents.length = names.length ∧
        station.Reads (readsOf sourceDir names contents) after ∧
        names.map (fun name => after.files (buildPath name)) = contents.map some ∧
        ∀ other ∉ names, after.files (buildPath other) = station.files (buildPath other)) := by
  induction names generalizing station with
  | nil =>
    exact upholds_done ⟨_, .refl station⟩ ⟨[], rfl, .refl station, rfl, fun _ _ => rfl⟩
  | cons name names ih =>
    obtain ⟨fresh, distinct⟩ := List.nodup_cons.mp distinct
    refine upholds_bind upholds_readSource ?_
    rintro content read reads same
    have first : station.Reads [(sourcePath sourceDir name, content)] read :=
      same ▸ station.reads_read _ _
    have puts : Upholds (stationStep compile remoteDir policy env)
        (onGuest (host.putBytes content (buildPath name) 0o644)) read (read.Writes name) _ :=
      upholds_putBytes content name 0o644
    refine upholds_bind (puts.mono ?_ fun _ _ held placed => And.intro held placed) ?_
    · exact fun after writes => ⟨_, first.still writes.1⟩
    rintro _ placed _ ⟨⟨still, others⟩, here⟩
    refine (ih distinct placed).mono ?_ ?_
    · rintro after ⟨more, later⟩
      exact ⟨_, (first.still still).trans later⟩
    rintro _ after _ ⟨contents, complete, later, files, kept⟩
    refine ⟨content :: contents, congrArg (· + 1) complete, ?_, ?_, ?_⟩
    · exact (first.still still).trans later
    · rw [List.map_cons, List.map_cons, files, kept name fresh, here]
    · intro other absent
      obtain ⟨differs, absent⟩ := not_or.mp (fun either => absent (List.mem_cons.mpr either))
      rw [kept other absent, others other differs, same]

theorem treeAt_eq {files : String → Option Bytes} {contents : List Bytes}
    (uploaded : hashFiles.map (fun name => files (buildPath name)) = contents.map some) :
    treeAt files = some contents := by
  have lifted : treeAt files = (hashFiles.map fun name => files (buildPath name)).mapM id := by
    simp [treeAt, List.mapM_map]
  rw [lifted, uploaded, List.mapM_map]
  exact (List.mapM_pure (m := Option) (f := id)).trans (by rw [List.map_id]; rfl)

theorem harmless_compileLine :
    ∀ command ∈ (Script.plain compileLine).line.commands, (actionOf remoteDir command).installs = false := by
  intro command member
  rcases List.mem_cons.mp member with rfl | member
  · exact congrArg Action.installs (action_cd remoteDir)
  · rw [List.mem_singleton.mp member, action_goBuild]
    rfl

theorem upholds_compileService {contents : List Bytes}
    (sources : treeAt station.files = some contents) :
    Upholds (stationStep compile remoteDir policy env) (onGuest (compileService host)) station
      (station.Reads [])
      (fun _ after => after.files (buildPath serviceName) = some (compile contents)) := by
  refine always_liftLeft ?_
  have runs : Upholds ((stationGuest compile remoteDir).step policy env)
      (host.run (.plain compileLine) false (some buildTimeoutSeconds)) station (station.Reads [])
      (fun result after => result.ok = true →
        after.files (buildPath serviceName) = some (compile contents)) := by
    refine upholds_run (.refl station) (fun x => ?_) (fun x _ ok => ?_)
    · exact script_keeps (station.Reads []) (fun _ _ _ _ here => here)
        (fun who command member _ here =>
          here.still (perform_harmless x (harmless_compileLine command member) who)) (.refl station)
    · obtain ⟨_, exited, world⟩ := run_andIf (x.perform compile remoteDir) rfl rfl .user station
        ((ok_of_iff _ _).mp ok)
      have entered : (x.perform compile remoteDir (.runs .user compileLine.head) station).2 = station :=
        perform_idle x (by rw [action_cd]; rfl) .user
      refine (congrArg (Station.files · (buildPath serviceName)) world).trans ?_
      rw [show (x.perform compile remoteDir (.runs .user ⟨.builtin, ["cd", buildDir], []⟩) station).2
        = station from entered] at exited ⊢
      simp only [GuestChoice.perform, action_goBuild, Station.act, sources] at exited ⊢
      split at exited
      · next good =>
        rw [if_pos good]
        exact put_files_self _ _ _
      · next bad => exact absurd exited bad
  refine upholds_bind runs ?_
  intro build after kept built
  split
  · next ok => exact upholds_done kept (built ok)
  · exact upholds_raise kept

theorem upholds_installBinary {binary : Bytes}
    (built : station.files (buildPath serviceName) = some binary) :
    Upholds (stationStep compile remoteDir policy env)
      (onGuest (host.sudo (installBinary remoteDir) true none)) station
      (fun after => after.reads = station.reads ∧ (after = station ∨ after.unstamped = true))
      (fun _ after => after.binary = some binary ∧ after.unstamped = true) := by
  refine always_liftLeft ?_
  have installs : Upholds ((stationGuest compile remoteDir).step policy env)
      (host.sudo (installBinary remoteDir) true none) station
      (fun after => (after.reads = station.reads ∧ after.files = station.files) ∧
        (after = station ∨ after.unstamped = true))
      (fun _ after => after.binary = some binary ∧ after.unstamped = true) := by
    have installed : ∀ (x : GuestChoice) (after : Station),
        after.reads = station.reads ∧ after.files = station.files →
        let result := x.perform compile remoteDir (.runs .root (installBinary remoteDir).head) after
        (result.2.reads = station.reads ∧ result.2.files = station.files) ∧
          result.2.unstamped = true ∧
          (result.1.exitStatus = 0 → result.2.binary = some binary) := by
      rintro x after ⟨reads, files⟩
      have source : after.files (buildPath serviceName) = some binary := files ▸ built
      simp only [GuestChoice.perform, action_installBinary, Station.act, source]
      split
      · exact ⟨⟨reads, files⟩, rfl, fun _ => rfl⟩
      · next bad => exact ⟨⟨reads, files⟩, rfl, fun good => absurd good bad⟩
    refine upholds_sudo_single (single_program _) ⟨⟨rfl, rfl⟩, .inl rfl⟩ ?_
      (fun unchecked => absurd unchecked (by decide)) ?_
    · intro x after held
      obtain ⟨kept, unstamped, _⟩ := installed x after held.1
      exact ⟨kept, .inr unstamped⟩
    · intro _ x after held _ checked
      obtain ⟨_, unstamped, placed⟩ := installed x after held.1
      exact ⟨placed (checked rfl), unstamped⟩
  exact installs.mono (fun _ held => ⟨held.1.1, held.2⟩) fun _ _ _ placed => placed

theorem upholds_writeStamp (digest : String) (unstamped : station.unstamped = true) :
    Upholds (stationStep compile remoteDir policy env)
      (onGuest (host.sudo (writeStamp remoteDir digest) true none)) station
      (fun after => (after.reads = station.reads ∧ after.binary = station.binary) ∧
        (after.unstamped = true ∨ after.stamp = some digest))
      (fun _ _ => True) := by
  refine always_liftLeft ?_
  have single : Single (writeStamp remoteDir digest) := single_program _
  refine upholds_sudo_single single ⟨⟨rfl, rfl⟩, .inl unstamped⟩ ?_
    (fun unchecked => absurd unchecked (by decide)) (fun _ _ _ _ _ => trivial)
  rintro x after ⟨kept, _⟩
  simp only [stationGuest, GuestChoice.perform, action_writeStamp, Station.act]
  split
  · exact ⟨kept, .inr rfl⟩
  · exact ⟨kept, .inl rfl⟩

-- What `installed_source_hash` returns: nothing, or the stamp.
theorem upholds_installedSourceHash :
    Upholds (stationStep compile remoteDir policy env)
      (onGuest (installedSourceHash host remoteDir)) station (· = station)
      (fun digest _ =>
        digest = "" ∨ ∃ stamp, station.stamp = some stamp ∧ digest = stripped stamp) := by
  refine always_liftLeft ?_
  have printed : ∀ x : GuestChoice,
      let result := x.perform compile remoteDir (.runs .root (catSourceHash remoteDir).head) station
      result.1.stdout = "" ∨ station.stamp = some result.1.stdout := by
    intro x
    simp only [GuestChoice.perform, action_catSourceHash, Station.act]
    split
    · cases stamp : station.stamp with
      | none => exact .inl rfl
      | some digest => exact .inr rfl
    · exact .inl rfl
  have prints : Upholds ((stationGuest compile remoteDir).step policy env)
      (host.sudo (catSourceHash remoteDir) false none) station (· = station)
      (fun result _ => result.stdout = "" ∨ station.stamp = some result.stdout) := by
    refine upholds_sudo_single ⟨rfl, rfl, rfl⟩ rfl ?_ (fun _ _ _ _ => .inl rfl) ?_
    · rintro x _ rfl
      exact perform_idle x (by rw [action_catSourceHash]; rfl) .root
    · rintro _ x _ rfl _ _
      exact printed x
  refine upholds_bind prints ?_
  rintro result _ rfl output
  refine upholds_done rfl ?_
  rcases output with empty | stamp
  · exact .inl (by rw [empty]; rfl)
  · exact .inr ⟨_, stamp, rfl⟩

end VmDeploy.Service
