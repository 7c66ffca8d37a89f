import VmDeploy.Config
import VmDeploy.VirtualBox.Manage

/-! `provision.py`: the snapshot, bake and roll back of `build_golden_template`
over a machine that keeps disk states.

The guest side of the bake is arbitrary: any programs over any guest operations.
Of the hypervisor it is assumed that an invocation with exit status zero had its
effect; a failed or timed out one may have had it or not. -/

set_option autoImplicit false

open Effects Python

namespace VmDeploy.Provision

open VirtualBox

variable {G : Signature} {D : Type}

def prebakeSnapshot : String := "vmdeploy-prebake"

def notRegistered (template : String) (registered : List Text) : PyError :=
  .vmDeployError (s!"Template machine '{template}' is not registered with VirtualBox; " ++
    s!"registered machines: {String.ofList (reprList registered)}")

def requireRegistered (template : String) : VBoxProg Unit := do
  if ← isRegistered template then
    pure ()
  else do
    .raise (notRegistered template (← listVms))

/-- The steps of the build that talk to the booted guest. -/
structure BakeSteps (G : Signature) where
  waitForGuestIp : (vm hostname : String) → (timeoutSeconds : Nat) → Prog G PyError String
  waitForSsh : (address : String) → SSHConfig → (timeoutSeconds : Nat) → Prog G PyError Unit
  connect : (address : String) → SSHConfig → Prog G PyError Unit
  prepareTemplate : (address : String) → ClusterConfig → (sourceDir : String) → Prog G PyError Unit
  sanitizeImage : (address user : String) → Prog G PyError Unit
  armCloudInit : (address : String) → Prog G PyError Unit
  close : (address : String) → Prog G PyError Unit

/-- From the address lookup to the end of the `with RemoteHost` block. -/
def bakeGuest (steps : BakeSteps G) (config : ClusterConfig) (sourceDir : String) :
    Prog G PyError Unit := do
  let template := config.virtualbox.templateVm
  let boot := config.virtualbox.bootTimeoutSeconds
  let address ← steps.waitForGuestIp template template boot
  steps.waitForSsh address config.ssh boot
  steps.connect address config.ssh
  Prog.ensuring (do
    steps.prepareTemplate address config sourceDir
    steps.sanitizeImage address config.ssh.user
    steps.armCloudInit address)
    (steps.close address)

/-- The body of the `try` statement. -/
def bakeAndExport (polls : Nat) (steps : BakeSteps G) (config : ClusterConfig)
    (sourceDir : String) : Prog (hostSignature.sum G) PyError Unit := do
  let template := config.virtualbox.templateVm
  (startHeadless template).liftLeft
  (bakeGuest steps config sourceDir).liftRight
  (powerOff polls template 120).liftLeft
  (exportAppliance template config.virtualbox.templateOva).liftLeft

/-- The `finally` block. -/
def rollBack (polls : Nat) (template : String) : VBoxProg Unit := do
  powerOff polls template 120
  restoreSnapshot template prebakeSnapshot
  deleteSnapshot template prebakeSnapshot

/-- Everything before the `try` statement. -/
def secureOriginal (polls : Nat) (template : String) : VBoxProg Unit := do
  requireRegistered template
  powerOff polls template 120
  takeSnapshot template prebakeSnapshot

def buildGoldenTemplate (polls : Nat) (steps : BakeSteps G) (config : ClusterConfig)
    (sourceDir : String) : Prog (hostSignature.sum G) PyError Unit := do
  let template := config.virtualbox.templateVm
  (secureOriginal polls template).liftLeft
  (bakeAndExport polls steps config sourceDir).ensuring (rollBack polls template).liftLeft

/-- A machine with its named snapshots. The disk state of a running machine is
the one it will have when it has stopped. -/
structure Machine (D : Type) where
  disk : D
  snapshots : String → Option D

/-- What the hypervisor may do with one operation. `settles` is the disk state a
booted guest would leave. -/
structure HostChoice (D : Type) where
  reply : (op : HostOp) → op.Reply
  applied : Bool
  settles : D

def Machine.after (vm : String) (machine : Machine D) (settles : D) : Command → Machine D
  | .startvm name =>
      if name = vm then { machine with disk := settles } else machine
  | .snapshotTake name snapshot =>
      if name = vm then
        { machine with snapshots := Function.update machine.snapshots snapshot (some machine.disk) }
      else machine
  | .snapshotRestore name snapshot =>
      if name = vm then { machine with disk := (machine.snapshots snapshot).getD machine.disk }
      else machine
  | .snapshotDelete name snapshot =>
      if name = vm then
        { machine with snapshots := Function.update machine.snapshots snapshot none }
      else machine
  | _ => machine

def hostStep (vm : String) : Step hostSignature (Machine D) (HostChoice D)
  | x, .invoke command timeout, machine =>
      let reply := x.reply (.invoke command timeout)
      (reply, if succeeded reply || x.applied then machine.after vm x.settles command else machine)
  | x, op, machine => (x.reply op, machine)

/-- A guest operation may turn the disk into anything, and reaches no snapshot. -/
def guestStep : Step G (Machine D) (((op : G.Op) → G.Reply op) × D)
  | x, op, machine => (x.1 op, { machine with disk := x.2 })

def machineStep (vm : String) :
    Step (hostSignature.sum G) (Machine D) (HostChoice D × ((op : G.Op) → G.Reply op) × D) :=
  (hostStep vm).sum guestStep

def Machine.Available (original : D) (machine : Machine D) : Prop :=
  machine.disk = original ∨ machine.snapshots prebakeSnapshot = some original

section Effects

variable (vm : String)

theorem hostStep_quiet (x : HostChoice D) (op : HostOp) (machine : Machine D) (quiet : op.Quiet) :
    (hostStep vm x op machine).2 = machine := by
  cases op with
  | invoke command timeout =>
    cases command with
    | startvm name => exact quiet.elim
    | snapshotTake name snapshot => cases quiet
    | snapshotRestore name snapshot => cases quiet
    | snapshotDelete name snapshot => cases quiet
    | _ => simp [hostStep, Machine.after]
  | _ => rfl

theorem hostStep_routine (x : HostChoice D) (op : HostOp) (machine : Machine D)
    (routine : op.Routine) : (hostStep vm x op machine).2.snapshots = machine.snapshots := by
  cases op with
  | invoke command timeout =>
    cases command with
    | startvm name =>
      simp only [hostStep, Machine.after]
      split
      · split <;> rfl
      · rfl
    | snapshotTake name snapshot => cases routine
    | snapshotRestore name snapshot => cases routine
    | snapshotDelete name snapshot => cases routine
    | _ => simp [hostStep, Machine.after]
  | _ => rfl

-- Clock, listing and shutdown calls leave the machine as it is.
theorem upholds_quiet {A : Type} {p : VBoxProg A} (quiet : p.Only HostOp.Quiet)
    {machine : Machine D} {inv : Machine D → Prop} (held : inv machine) :
    Upholds (hostStep vm) p machine inv (fun _ after => after = machine) := by
  have same : Upholds (hostStep vm) p machine (fun after => after = machine) (fun _ _ => True) :=
    upholds_only quiet rfl
      (fun x op before here same => (hostStep_quiet vm x op before here).trans same)
  exact same.mono (fun _ same => same ▸ held) (fun _ _ same _ => same)

-- The invocation of a command: a zero exit status means that it took effect.
theorem upholds_run {command : Command} {check : Bool} {timeout : Nat} {machine : Machine D}
    {inv : Machine D → Prop} {post : ProcessResult → Machine D → Prop} (held : inv machine)
    (applies : ∀ settles, inv (machine.after vm settles command))
    (refused : check = false → ∀ result after settles,
      after = machine ∨ after = machine.after vm settles command → post result after)
    (done : ∀ result settles, post result (machine.after vm settles command)) :
    Upholds (hostStep vm) (run command check timeout) machine inv post := by
  refine upholds_call held ?_
  intro x
  have either : (hostStep vm x (.invoke command timeout) machine).2 = machine ∨
      (hostStep vm x (.invoke command timeout) machine).2 = machine.after vm x.settles command := by
    simp only [hostStep]
    split
    · exact .inr rfl
    · exact .inl rfl
  have kept : inv (hostStep vm x (.invoke command timeout) machine).2 := by
    rcases either with same | same
    · rw [same]; exact held
    · rw [same]; exact applies x.settles
  change Upholds _ (completed command check timeout (x.reply (.invoke command timeout))) _ inv post
  cases replied : x.reply (.invoke command timeout) with
  | error fault => cases fault <;> exact upholds_raise kept
  | ok result =>
    by_cases good : result.ok
    · have applied : (hostStep vm x (.invoke command timeout) machine).2 =
          machine.after vm x.settles command := by simp [hostStep, replied, succeeded, good]
      simp only [completed, good, Bool.not_true, Bool.and_false, Bool.false_eq_true, if_false]
      refine upholds_done kept ?_
      rw [applied]
      exact done _ _
    · cases check with
      | true =>
        simp only [completed, good, Bool.not_false, Bool.and_true, if_true]
        exact upholds_raise kept
      | false =>
        simp only [completed, Bool.false_and, Bool.false_eq_true, if_false]
        exact upholds_done kept (refused rfl _ _ _ either)

theorem upholds_deleteSnapshot (snapshot : String) (machine : Machine D) :
    Upholds (hostStep vm) (deleteSnapshot vm snapshot) machine
      (fun after => after.disk = machine.disk)
      (fun _ after => after.snapshots snapshot = machine.snapshots snapshot ∨
        after.snapshots snapshot = none) := by
  have either : ∀ (after : Machine D) (settles : D),
      after = machine ∨ after = machine.after vm settles (.snapshotDelete vm snapshot) →
      after.snapshots snapshot = machine.snapshots snapshot ∨ after.snapshots snapshot = none := by
    rintro after settles (rfl | rfl)
    · exact .inl rfl
    · exact .inr (by simp [Machine.after])
  refine upholds_bind (upholds_run vm rfl ?_ ?_ ?_) (fun _ _ held here => upholds_done held here)
  · exact fun settles => by simp [Machine.after]
  · exact fun _ _ after settles same => either after settles same
  · exact fun _ settles => either _ settles (.inr rfl)

-- However it ends, taking a snapshot leaves the disk; when it returns, the
-- snapshot of that name holds the disk and nothing it held before.
theorem upholds_takeSnapshot (snapshot : String) (machine : Machine D) :
    Upholds (hostStep vm) (takeSnapshot vm snapshot) machine
      (fun after => after.disk = machine.disk)
      (fun _ after => after.snapshots snapshot = some machine.disk) := by
  have taken : ∀ before : Machine D, before.disk = machine.disk →
      Upholds (hostStep vm) (run (.snapshotTake vm snapshot) true 300 >>= fun _ => pure ()) before
        (fun after => after.disk = machine.disk)
        (fun _ after => after.snapshots snapshot = some machine.disk) := by
    intro before same
    refine upholds_bind (upholds_run vm same ?_ ?_ ?_) (fun _ _ held here => upholds_done held here)
    · exact fun settles => by simpa [Machine.after] using same
    · exact fun unchecked => nomatch unchecked
    · exact fun _ settles => by simp [Machine.after, same]
  refine upholds_bind (upholds_quiet vm (hasSnapshot_quiet vm snapshot) rfl) ?_
  rintro present after _ rfl
  cases present with
  | false => exact taken after rfl
  | true =>
    exact upholds_bind (upholds_deleteSnapshot vm snapshot after) (fun _ w same _ => taken w same)

theorem upholds_restoreSnapshot (snapshot : String) (machine : Machine D) {original : D}
    (held : machine.snapshots snapshot = some original) :
    Upholds (hostStep vm) (restoreSnapshot vm snapshot) machine
      (fun after => after.snapshots snapshot = some original)
      (fun _ after => after.disk = original) := by
  refine upholds_bind (upholds_quiet vm (state_quiet vm) held) ?_
  rintro seen after _ rfl
  split
  · exact upholds_raise held
  · refine upholds_bind (upholds_run vm held ?_ ?_ ?_) (fun _ _ held here => upholds_done held here)
    · exact fun settles => by simpa [Machine.after] using held
    · exact fun unchecked => nomatch unchecked
    · exact fun _ settles => by simp [Machine.after, held]

theorem upholds_requireRegistered {machine : Machine D} {inv : Machine D → Prop}
    (held : inv machine) :
    Upholds (hostStep vm) (requireRegistered vm) machine inv (fun _ after => after = machine) := by
  refine upholds_quiet vm (Prog.Only.bind (isRegistered_quiet vm) ?_) held
  intro present
  split
  · trivial
  · exact Prog.Only.bind listVms_quiet (fun _ => trivial)

-- Before the `try` statement the disk is never touched, and when it is reached
-- the snapshot holds the disk.
theorem upholds_secureOriginal (polls : Nat) (machine : Machine D) :
    Upholds (hostStep vm) (secureOriginal polls vm) machine
      (fun after => after.disk = machine.disk)
      (fun _ after => after.snapshots prebakeSnapshot = some machine.disk) := by
  refine upholds_bind (upholds_requireRegistered vm rfl) ?_
  rintro _ after _ rfl
  refine upholds_bind (upholds_quiet vm (powerOff_quiet polls vm 120) rfl) ?_
  rintro _ stopped _ rfl
  exact upholds_takeSnapshot vm prebakeSnapshot stopped

-- The `finally` block, from a machine whose snapshot holds `original`.
theorem upholds_rollBack (polls : Nat) (machine : Machine D) {original : D}
    (held : machine.snapshots prebakeSnapshot = some original) :
    Upholds (hostStep vm) (rollBack polls vm) machine (Machine.Available original)
      (fun _ after => after.disk = original ∧
        (after.snapshots prebakeSnapshot = some original ∨
          after.snapshots prebakeSnapshot = none)) := by
  refine upholds_bind (upholds_quiet vm (powerOff_quiet polls vm 120) (.inr held)) ?_
  rintro _ stopped _ rfl
  have restores : Upholds (hostStep vm) (restoreSnapshot vm prebakeSnapshot) stopped
      (Machine.Available original)
      (fun _ after => after.disk = original ∧ after.snapshots prebakeSnapshot = some original) :=
    (upholds_restoreSnapshot vm prebakeSnapshot stopped held).mono
      (fun _ kept => .inr kept) (fun _ _ kept same => ⟨same, kept⟩)
  refine upholds_bind restores ?_
  rintro _ restored _ ⟨disk, kept⟩
  refine (upholds_deleteSnapshot vm prebakeSnapshot restored).mono ?_ ?_
  · exact fun after same => .inl (same.trans disk)
  · exact fun _ after same either => ⟨same.trans disk, kept ▸ either⟩

end Effects

section Build

variable (polls : Nat) (steps : BakeSteps G) (config : ClusterConfig) (sourceDir : String)

-- Nothing between snapshot and roll back reaches a snapshot.
theorem upholds_bakeAndExport (machine : Machine D) :
    Upholds (machineStep config.virtualbox.templateVm)
      (bakeAndExport polls steps config sourceDir) machine
      (fun after => after.snapshots = machine.snapshots) (fun _ _ => True) := by
  have routine : (bakeAndExport polls steps config sourceDir).Only
      (Sum.elim HostOp.Routine (fun _ => True)) := by
    refine Prog.Only.bind (Prog.only_liftLeft (I := hostSignature) (startHeadless_routine _)) (fun _ => ?_)
    refine Prog.Only.bind (Prog.only_liftRight (I := hostSignature) (Prog.only_true _)) (fun _ => ?_)
    refine Prog.Only.bind (Prog.only_liftLeft (I := hostSignature) ?_) (fun _ => ?_)
    · exact (powerOff_quiet polls _ 120).mono fun _ => HostOp.Quiet.routine
    · exact Prog.only_liftLeft (I := hostSignature) (exportAppliance_routine _ _)
  refine upholds_only routine rfl ?_
  intro x op before allowed same
  cases op with
  | inl op => exact (hostStep_routine _ x.1 op before allowed).trans same
  | inr op => exact same

-- One build: the starting disk state stays available, and a build that returns
-- has put it back and left no other state in the snapshot.
theorem upholds_buildGoldenTemplate (machine : Machine D) :
    Upholds (machineStep config.virtualbox.templateVm)
      (buildGoldenTemplate polls steps config sourceDir) machine
      (Machine.Available machine.disk)
      (fun _ after => after.disk = machine.disk ∧
        (after.snapshots prebakeSnapshot = some machine.disk ∨
          after.snapshots prebakeSnapshot = none)) := by
  have secures : Upholds (hostStep _) (secureOriginal polls config.virtualbox.templateVm) machine
      (Machine.Available machine.disk)
      (fun _ after => after.snapshots prebakeSnapshot = some machine.disk) :=
    (upholds_secureOriginal _ polls machine).mono (fun _ same => .inl same) (fun _ _ _ held => held)
  refine upholds_bind (always_liftLeft secures) ?_
  rintro _ secured _ held
  refine upholds_ensuring (upholds_bakeAndExport polls steps config sourceDir secured) ?_ ?_
  · exact fun after same => .inr (same ▸ held)
  · exact fun after same => always_liftLeft (upholds_rollBack _ polls after (same ▸ held))

/-- Builds that each start from the original disk state never lose it, whatever
fails in them and wherever they stop. -/
theorem original_survives_rolled_back_builds (start : Machine D)
    {scripts : List (List (HostChoice D × ((op : G.Op) → G.Reply op) × D))}
    (rolledBack : EachRun (machineStep config.virtualbox.templateVm)
      (buildGoldenTemplate polls steps config sourceDir)
      (fun before _ _ => before.disk = start.disk) start scripts) :
    EachRun (machineStep config.virtualbox.templateVm)
      (buildGoldenTemplate polls steps config sourceDir)
      (fun _ _ after => after.Available start.disk) start scripts := by
  refine eachRun_of_invariant (fun _ => True) ?_ trivial rolledBack
  intro machine _
  refine Always.mono (upholds_buildGoldenTemplate polls steps config sourceDir machine) ?_
  rintro _ after ⟨available, _⟩ same
  exact ⟨trivial, same ▸ available⟩

theorem not_available {machine : Machine D} {other original : D} (changed : other ≠ original)
    (disk : machine.disk = other)
    (snapshot : machine.snapshots prebakeSnapshot = some other ∨
      machine.snapshots prebakeSnapshot = none) : ¬ machine.Available original := by
  rintro (same | held)
  · exact changed (disk.symm.trans same)
  · rcases snapshot with kept | absent
    · exact changed (Option.some.inj (kept.symm.trans held))
    · exact nomatch absent.symm.trans held

-- Starting from any other disk state, a build that returns has overwritten the snapshot and
-- rolled back to that other state.
theorem completed_build_forgets_original {machine : Machine D} {original : D}
    (changed : machine.disk ≠ original) :
    Always (machineStep config.virtualbox.templateVm)
      (buildGoldenTemplate polls steps config sourceDir) machine
      (fun outcome after => outcome = .returned () → ¬ after.Available original) := by
  refine Always.mono (upholds_buildGoldenTemplate polls steps config sourceDir machine) ?_
  rintro outcome after ⟨_, returned⟩ ended
  exact not_available changed (returned () ended).1 (returned () ended).2

-- So has a build that raises, when its snapshot has been taken and its roll back completes.
theorem completed_rollBack_forgets_original {machine baked : Machine D} {original : D}
    (changed : machine.disk ≠ original)
    (taken : baked.snapshots prebakeSnapshot = some machine.disk) :
    Always (hostStep config.virtualbox.templateVm) (rollBack polls config.virtualbox.templateVm)
      baked (fun outcome after => outcome = .returned () → ¬ after.Available original) := by
  refine Always.mono (upholds_rollBack _ polls baked taken) ?_
  rintro outcome after ⟨_, returned⟩ ended
  exact not_available changed (returned () ended).1 (returned () ended).2

end Build

section FailedRollBack

inductive BoxState where
  | original
  | halfBuilt
  deriving DecidableEq, Repr

instance [DecidableEq D] (original : D) : DecidablePred (Machine.Available original) :=
  fun machine => inferInstanceAs (Decidable (machine.disk = original ∨ _ = some original))

def exampleConfig : ClusterConfig where
  ssh := ⟨"vmadmin", "~/.vmdeploy/keys/vm_key", 30, 300⟩
  virtualbox := ⟨"VBoxManage.exe", "apubuntuD", "~/templates/apcluster-golden.ova",
    "apcluster-golden:latest", 1024, 1, 420⟩
  jump := ⟨"apjump", "apjump", .jump, 80⟩
  backends := [⟨"apnode1", "apnode1", .backend, 8080⟩]
  inventory := ⟨5090, "/opt/inventory", "~/.vmdeploy/keys/inventory.key", "inventory.enc",
    "~/.vmdeploy/inventory.enc"⟩
  website := ⟨"https://your-org.github.io/",
    "https://github.com/your-org/your-site/archive/refs/heads/main.tar.gz", "/var/www/html"⟩
  build := ⟨"1.26.5", "5c2c3b16caefa1d968a94c1daca04a7ca301a496d9b086e17ad77bb81393f053"⟩

abbrev noGuestCalls : Signature := ⟨Empty, fun op => nomatch op⟩

def unreachableGuest : BakeSteps noGuestCalls where
  waitForGuestIp vm hostname timeoutSeconds :=
    .raise (.provisioningTimeoutError (s!"Could not determine a reachable IPv4 address for {vm} " ++
      s!"(hostname {hostname}) within {timeoutSeconds}s; check that the guest " ++
      "obtained a DHCP lease on its bridged adapter"))
  waitForSsh _ _ _ := pure ()
  connect _ _ := pure ()
  prepareTemplate _ _ _ := pure ()
  sanitizeImage _ _ := pure ()
  armCloudInit _ := pure ()
  close _ := pure ()

def answering (reply : Except RunFault ProcessResult) :
    HostChoice BoxState × ((op : Empty) → nomatch op) × BoxState :=
  ({ reply := HostOp.idle reply, applied := false, settles := .halfBuilt }, nofun, .halfBuilt)

def printing (exitStatus : Int) (stdout : String) :=
  answering (.ok ⟨exitStatus, stdout, ""⟩)

def untilBake (snapshots : List (HostChoice BoxState × ((op : Empty) → nomatch op) × BoxState)) :=
  [printing 0 "\"apubuntuD\" {5c1f}", printing 0 "VMState=\"aborted\""] ++ snapshots ++
    [printing 0 "VMState=\"aborted\"", printing 0 "",
      printing 0 "VMState=\"aborted\"", printing 0 "VMState=\"aborted\""]

/-- No snapshot yet; the restore of the `finally` block times out. -/
def restoreTimesOut :=
  untilBake [printing 1 "", printing 0 ""] ++ [answering (.error .timeoutExpired)]

/-- The snapshot is listed, deleted and taken again; the roll back succeeds. -/
def restoreSucceeds :=
  untilBake [printing 0 "SnapshotName=\"vmdeploy-prebake\"", printing 0 "", printing 0 ""] ++
    [printing 0 "", printing 0 ""]

def workingBox : Machine BoxState := ⟨.original, fun _ => none⟩

/-- The first build fails to roll back and leaves the original in the snapshot;
the second one deletes that snapshot before it takes its own. -/
theorem second_build_forgets_original :
    ¬ EachRun (machineStep "apubuntuD")
      (buildGoldenTemplate 30 unreachableGuest exampleConfig "goservice")
      (fun _ _ after => after.Available .original) workingBox
      [restoreTimesOut, restoreSucceeds] := by
  rintro ⟨_, available, _⟩
  exact absurd available (by decide)

/-- Two builds of which the first one rolls back, as a case of the general theorem. -/
theorem original_survives_two_builds :
    EachRun (machineStep "apubuntuD")
      (buildGoldenTemplate 30 unreachableGuest exampleConfig "goservice")
      (fun _ _ after => after.Available .original) workingBox
      [untilBake [printing 1 "", printing 0 ""] ++ [printing 0 "", printing 0 ""],
        restoreTimesOut] :=
  original_survives_rolled_back_builds 30 unreachableGuest exampleConfig "goservice" workingBox
    ⟨rfl, by decide, trivial⟩

end FailedRollBack

end VmDeploy.Provision
