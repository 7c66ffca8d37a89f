import VmDeploy.Preflight.Checks

/-! When `run_preflight` returns. -/

set_option autoImplicit false

open Effects Python

namespace VmDeploy.Preflight

open VirtualBox Provision

/-- Everything a run may meet: one answer to every labelled request. -/
abbrev Answers := (op : checkSignature.Op) → checkSignature.Reply op

def Answers.to (answers : Answers) (check : Check) (turn : Nat) (op : HostOp) : op.Reply :=
  answers (⟨check, turn⟩, .inl op)

def Answers.measured (answers : Answers) (check : Check) (turn : Nat) (op : MeasureOp) : op.Reply :=
  answers (⟨check, turn⟩, .inr op)

section Graceful

variable (answers : Answers) (config : ClusterConfig)

def folderOf (present : Bool) : Option String :=
  if present then
    (answers.to .hostDisk 2 (.invoke .listSystemproperties 120)).toOption.bind fun result =>
      if result.ok then machineFolder? result.stdout.toList else none
  else none

def probeDirOf (present : Bool) : String :=
  (folderOf answers present).getD (String.ofList (pathParent config.virtualbox.templateOva.toList))

def Measured (present : Bool) : Prop :=
  let probeDir := probeDirOf answers config present
  ∃ here free, answers.to .hostDisk 3 (.pathExists probeDir) = .ok here ∧
    answers.measured .hostDisk 4 (.diskUsage
      (if here then probeDir else String.ofList (pathRoot probeDir.toList))) = .ok free

def Listed (present : Bool) : Prop :=
  present = true →
    answers.to .hostDisk 1 (.isFile config.virtualbox.vboxmanage) = .ok true ∧
      ∃ result, answers.to .hostDisk 2 (.invoke .listSystemproperties 120) = .ok result

def Sized : Prop :=
  ∃ built, answers.to .hostDisk 5 (.isFile config.virtualbox.templateOva) = .ok built ∧
    (built = true → ∃ size,
      answers.to .hostDisk 6 (.statSize config.virtualbox.templateOva) = .ok size)

def Registers : Prop :=
  ∃ present, answers.to .templateOrOva 2 (.isFile config.virtualbox.vboxmanage) = .ok present ∧
    (present = true →
      answers.to .templateOrOva 3 (.isFile config.virtualbox.vboxmanage) = .ok true ∧
        succeeded (answers.to .templateOrOva 4 (.invoke .listVms 120)) = true)

/-- What the requests of a check that no `except` covers must come to. -/
def Graceful : Check → Prop
  | .vboxmanage =>
      let path := config.virtualbox.vboxmanage
      ∃ present, answers.to .vboxmanage 0 (.isFile path) = .ok present ∧
        (present = true → answers.to .vboxmanage 1 (.isFile path) ≠ .ok false ∧
          (answers.to .vboxmanage 1 (.isFile path) = .ok true →
            succeeded (answers.to .vboxmanage 2 (.invoke .version 120)) = true))
  | .sshKey => ∃ present, answers.to .sshKey 0 (.isFile config.ssh.keyPath) = .ok present
  | .keyDirectory => '\x00' ∉ pathParent config.inventory.manifestFile.toList
  | .hostRam => True
  | .hostDisk =>
      ∃ present, answers.to .hostDisk 0 (.isFile config.virtualbox.vboxmanage) = .ok present ∧
        Listed answers config present ∧ (Measured answers config present → Sized answers config)
  | .templateOrOva =>
      let ova := config.virtualbox.templateOva
      ∃ built, answers.to .templateOrOva 0 (.isFile ova) = .ok built ∧
        (built = true → ∃ size, answers.to .templateOrOva 1 (.statSize ova) = .ok size) ∧
        (built = false → Registers answers config)

end Graceful

section Requests

variable {A : Type}

def settled : Except String A → Outcome PyError A
  | .ok value => .returned value
  | .error message => .raised (.osError message)

@[simp] theorem outcome_raising (answers : Answers) (measured : Except String A) :
    (raising measured).outcome answers = settled measured := by
  cases measured <;> rfl

section Measures

variable (answers : Answers) (check : Check) (turn : Nat) (path text : String)

@[simp] theorem outcome_writeText : (writeText check turn path text).outcome answers =
    settled (answers.measured check turn (.writeText path text)) :=
  outcome_raising answers _

@[simp] theorem outcome_diskFree : (diskFree check turn path).outcome answers =
    settled (answers.measured check turn (.diskUsage path)) :=
  outcome_raising answers _

-- A call of `sysconf` returns a number or raises what is caught.
theorem outcome_sysconf (name : String) :
    (∃ value, (sysconf turn name).outcome answers = .returned value) ∨
      ∃ error, (sysconf turn name).outcome answers = .raised error ∧
        undetermined error = some (pure none) := by
  change (∃ value, Prog.outcome answers
      (sysconfRaising (answers.measured .hostRam turn (.sysconf name))) = .returned value) ∨
    ∃ error, Prog.outcome answers
      (sysconfRaising (answers.measured .hostRam turn (.sysconf name))) = .raised error ∧ _
  cases answers.measured .hostRam turn (.sysconf name) with
  | ok value => exact .inl ⟨value, rfl⟩
  | error fault => cases fault <;> exact .inr ⟨_, rfl, rfl⟩

end Measures

@[simp] theorem outcome_asks (answers : Answers) (check : Check) (turn : Nat) (p : VBoxProg A) :
    (asks check turn p).outcome answers = p.outcome (answers.to check turn) :=
  Prog.outcome_refine (fun _ => rfl) p

variable (replies : (op : HostOp) → op.Reply) (path : String)

@[simp] theorem outcome_orOsError (answer : Except String A) :
    (orOsError answer).outcome replies = settled answer := by
  cases answer <;> rfl

@[simp] theorem outcome_isFile :
    (isFile path).outcome replies = settled (replies (.isFile path)) :=
  outcome_orOsError replies _

@[simp] theorem outcome_stSize :
    (stSize path).outcome replies = settled (replies (.statSize path)) :=
  outcome_orOsError replies _

@[simp] theorem outcome_pathExists :
    (pathExists path).outcome replies = settled (replies (.pathExists path)) :=
  outcome_orOsError replies _

@[simp] theorem outcome_mkdirParents :
    (mkdirParents path).outcome replies =
      if '\x00' ∈ path.toList then .raised (.valueError "mkdir: embedded null character in path")
      else settled (replies (.mkdirParents path)) := by
  by_cases null : '\x00' ∈ path.toList
  · simp [mkdirParents, null]
  · rw [mkdirParents, if_neg null, if_neg null]
    exact outcome_orOsError replies _

@[simp] theorem outcome_unlink :
    (unlink path).outcome replies = settled (replies (.unlink path)) :=
  outcome_orOsError replies _

@[simp] theorem outcome_bindVBoxManage :
    (bindVBoxManage path).outcome replies =
      ((isFile path).outcome replies).andThen fun present =>
        if present then .returned () else
          .raised (.virtualBoxError [path] (-1) "VBoxManage executable not found") := by
  rw [outcome_isFile]
  have opened : (bindVBoxManage path).outcome replies =
      ((orOsError (replies (.isFile path))).outcome replies).andThen fun present =>
        (if present then pure () else
          .raise (.virtualBoxError [path] (-1) "VBoxManage executable not found") :
          VBoxProg Unit).outcome replies :=
    Prog.outcome_bind replies (orOsError (replies (.isFile path))) _
  rw [opened, outcome_orOsError]
  congr 1
  funext present
  cases present <;> rfl

@[simp] theorem outcome_run (command : Command) (check : Bool) (timeout : Nat) :
    (run command check timeout).outcome replies =
      (completed command check timeout (replies (.invoke command timeout))).outcome replies := rfl

end Requests
section Each

variable (answers : Answers) (config : ClusterConfig) (oneDecimal : Float → String)

/-- A check returns its own result where its requests come to what they must, and otherwise
it raises. -/
def Settles (check : Check) (p : CheckProg CheckResult) : Prop :=
  (Graceful answers config check ∧ ∃ result, p.outcome answers = .returned result ∧
      result.name = check.name) ∨
    (¬ Graceful answers config check ∧ ∃ error, p.outcome answers = .raised error)

attribute [local simp] settled Outcome.andThen Outcome.handled completed
failed

theorem settles_sshKey : Settles answers config .sshKey (checkSshKey config) := by
  cases found : answers.to .sshKey 0 (.isFile config.ssh.keyPath) with
  | error message =>
    exact .inr ⟨by simp [Graceful, found], by simp [checkSshKey, found]⟩
  | ok present =>
    refine .inl ⟨⟨present, found⟩, ?_⟩
    cases present <;> simp [checkSshKey, found]

theorem settles_keyDirectory :
    Settles answers config .keyDirectory (checkKeyDirectoryWritable config) := by
  simp only [Settles, Graceful, checkKeyDirectoryWritable]
  obtain ⟨target, same⟩ : ∃ target : String,
      target.toList = pathParent config.inventory.manifestFile.toList :=
    ⟨.ofList _, String.toList_ofList⟩
  rw [← same, String.ofList_toList]
  generalize String.ofList (joinPath target.toList ".vmdeploy-write-test".toList) = probe
  by_cases null : '\x00' ∈ target.toList
  · exact .inr ⟨fun clean => clean null, by simp [null, notWritable]⟩
  refine .inl ⟨null, ?_⟩
  cases made : answers.to .keyDirectory 0 (.mkdirParents target) with
  | error message => simp [null, made, notWritable]
  | ok _ =>
    cases written : answers.measured .keyDirectory 1 (.writeText probe "ok") with
    | error message => simp [null, made, written, notWritable]
    | ok _ =>
      cases gone : answers.to .keyDirectory 2 (.unlink probe) <;>
        simp [null, made, written, gone, notWritable]

theorem windowsRam_known :
    ∃ available, windowsAvailableRamMb.outcome answers = .returned available := by
  change ∃ available, Prog.outcome answers
    (if answers.measured .hostRam 1 .hasWindll = true then _ else pure none) = .returned available
  split <;> exact ⟨_, rfl⟩

theorem posixRam_known :
    ∃ available, posixAvailableRamMb.outcome answers = .returned available := by
  change ∃ available, Prog.outcome answers
    (if answers.measured .hostRam 3 .hasSysconf = true then _ else pure none) = .returned available
  split
  · obtain ⟨pages, counted⟩ | ⟨error, counted, caught⟩ :=
      outcome_sysconf answers 4 "SC_AVPHYS_PAGES"
    · obtain ⟨size, sized⟩ | ⟨error, sized, caught⟩ := outcome_sysconf answers 5 "SC_PAGE_SIZE"
      · exact ⟨some (megabytes (pages * size)), by simp [counted, sized]⟩
      · exact ⟨none, by simp [counted, sized, caught]⟩
    · exact ⟨none, by simp [counted, caught]⟩
  · exact ⟨none, rfl⟩

-- Whatever the platform answers, the available memory is known or unknown.
theorem availableRam_known :
    ∃ available, hostAvailableRamMb.outcome answers = .returned available := by
  change ∃ available, Prog.outcome answers
    (if answers.measured .hostRam 0 .platformSystem = "Windows" then windowsAvailableRamMb
      else posixAvailableRamMb) = .returned available
  split
  · exact windowsRam_known answers
  · exact posixRam_known answers

theorem settles_hostRam : Settles answers config .hostRam (checkHostRam config) := by
  refine .inl ⟨trivial, ?_⟩
  obtain ⟨known, here⟩ := availableRam_known answers
  cases known with
  | none => simp [checkHostRam, here]
  | some available =>
    simp [checkHostRam, here]
    split
    · exact ⟨_, rfl, rfl⟩
    · split <;> exact ⟨_, rfl, rfl⟩

theorem settles_vboxmanage : Settles answers config .vboxmanage (checkVboxmanage config) := by
  cases found : answers.to .vboxmanage 0 (.isFile config.virtualbox.vboxmanage) with
  | error message => exact .inr ⟨by simp [Graceful, found], by simp [checkVboxmanage, found]⟩
  | ok present =>
    cases present with
    | false => exact .inl ⟨⟨false, found, by simp⟩, by simp [checkVboxmanage, found]⟩
    | true =>
      cases bound : answers.to .vboxmanage 1 (.isFile config.virtualbox.vboxmanage) with
      | error message =>
        exact .inl ⟨⟨true, found, by simp [bound]⟩,
          by simp [checkVboxmanage, found, bound, notRunnable]⟩
      | ok there =>
        cases there with
        | false =>
          exact .inr ⟨by simp [Graceful, found, bound],
            by simp [checkVboxmanage, found, bound, notRunnable]⟩
        | true =>
          cases ran : answers.to .vboxmanage 2 (.invoke .version 120) with
          | error fault =>
            refine .inr ⟨by simp [Graceful, found, bound, ran, succeeded], ?_⟩
            cases fault <;> simp [checkVboxmanage, found, bound, ran, notRunnable]
          | ok result =>
            cases good : result.ok with
            | true =>
              exact .inl ⟨⟨true, found, by simp [bound, ran, succeeded, good]⟩,
                by simp [checkVboxmanage, found, bound, ran, good]⟩
            | false =>
              exact .inr ⟨by simp [Graceful, found, bound, ran, succeeded, good],
                by simp [checkVboxmanage, found, bound, ran, good, notRunnable]⟩

theorem folder_read {present : Bool}
    (found : answers.to .hostDisk 0 (.isFile config.virtualbox.vboxmanage) = .ok present)
    (listed : Listed answers config present) :
    (vboxMachineFolder config).outcome answers = .returned (folderOf answers present) := by
  cases present with
  | false => simp [vboxMachineFolder, found, folderOf]
  | true =>
    obtain ⟨bound, result, ran⟩ := listed rfl
    simp [vboxMachineFolder, found, bound, ran, folderOf, Except.toOption]

theorem folder_raises
    (missing : ¬ ∃ present,
      answers.to .hostDisk 0 (.isFile config.virtualbox.vboxmanage) = .ok present ∧
        Listed answers config present) :
    ∃ error, (vboxMachineFolder config).outcome answers = .raised error := by
  cases found : answers.to .hostDisk 0 (.isFile config.virtualbox.vboxmanage) with
  | error message => simp [vboxMachineFolder, found]
  | ok present =>
    cases present with
    | false => exact absurd ⟨false, found, by simp [Listed]⟩ missing
    | true =>
      cases bound : answers.to .hostDisk 1 (.isFile config.virtualbox.vboxmanage) with
      | error message => simp [vboxMachineFolder, found, bound]
      | ok there =>
        cases there with
        | false => simp [vboxMachineFolder, found, bound]
        | true =>
          cases ran : answers.to .hostDisk 2 (.invoke .listSystemproperties 120) with
          | error fault => cases fault <;> simp [vboxMachineFolder, found, bound, ran]
          | ok result => exact absurd ⟨true, found, fun _ => ⟨bound, result, ran⟩⟩ missing

theorem usage_read {present : Bool} (measured : Measured answers config present) :
    ∃ free, (measuredUsage (probeDirOf answers config present)).outcome answers =
      .returned (.ok free) := by
  obtain ⟨here, free, exists', sized⟩ := measured
  exact ⟨free, by simp [measuredUsage, exists', sized]⟩

theorem usage_reported {present : Bool} (missing : ¬ Measured answers config present) :
    ∃ warning, (measuredUsage (probeDirOf answers config present)).outcome answers =
      .returned (.error warning) ∧ warning.name = Check.name .hostDisk := by
  cases exists' : answers.to .hostDisk 3 (.pathExists (probeDirOf answers config present)) with
  | error message => simp [measuredUsage, exists', notMeasured]
  | ok here =>
    cases sized : answers.measured .hostDisk 4 (.diskUsage (if here then
      probeDirOf answers config present else
        String.ofList (pathRoot (probeDirOf answers config present).toList))) with
    | error message => simp [measuredUsage, exists', sized, notMeasured]
    | ok free => exact absurd ⟨here, free, exists', sized⟩ missing

theorem size_read (sized : Sized answers config) :
    ∃ size, (applianceSize config).outcome answers = .returned size := by
  obtain ⟨built, found, stat⟩ := sized
  cases built with
  | false => simp [applianceSize, found]
  | true =>
    obtain ⟨size, known⟩ := stat rfl
    simp [applianceSize, found, known]

theorem size_raises (missing : ¬ Sized answers config) :
    ∃ error, (applianceSize config).outcome answers = .raised error := by
  cases found : answers.to .hostDisk 5 (.isFile config.virtualbox.templateOva) with
  | error message => simp [applianceSize, found]
  | ok built =>
    cases built with
    | false => exact absurd ⟨false, found, by simp⟩ missing
    | true =>
      cases known : answers.to .hostDisk 6 (.statSize config.virtualbox.templateOva) with
      | error message => simp [applianceSize, found, known]
      | ok size => exact absurd ⟨true, found, fun _ => ⟨size, known⟩⟩ missing

theorem settles_hostDisk : Settles answers config .hostDisk (checkHostDisk config oneDecimal) := by
  by_cases listed : ∃ present,
      answers.to .hostDisk 0 (.isFile config.virtualbox.vboxmanage) = .ok present ∧
        Listed answers config present
  · obtain ⟨present, found, rest⟩ := listed
    have folder := folder_read answers config found rest
    by_cases measured : Measured answers config present
    · obtain ⟨free, usage⟩ := usage_read answers config measured
      rw [probeDirOf] at usage
      by_cases sized : Sized answers config
      · refine .inl ⟨⟨present, found, rest, fun _ => sized⟩, ?_⟩
        obtain ⟨size, known⟩ := size_read answers config sized
        simp [checkHostDisk, folder, usage, known]
        split <;> simp
      · obtain ⟨error, raised⟩ := size_raises answers config sized
        refine .inr ⟨?_, error, by simp [checkHostDisk, folder, usage, raised]⟩
        rintro ⟨present', found', -, stat⟩
        cases found.symm.trans found'
        exact sized (stat measured)
    · obtain ⟨warning, usage, named⟩ := usage_reported answers config measured
      rw [probeDirOf] at usage
      exact .inl ⟨⟨present, found, rest, fun sure => absurd sure measured⟩,
        warning, by simp [checkHostDisk, folder, usage], named⟩
  · obtain ⟨error, raised⟩ := folder_raises answers config listed
    refine .inr ⟨?_, error, by simp [checkHostDisk, raised]⟩
    rintro ⟨present, found, rest, -⟩
    exact listed ⟨present, found, rest⟩

theorem registered_settles :
    (Registers answers config ∧
      ∃ registered, (templateRegistered config).outcome answers = .returned registered) ∨
    (¬ Registers answers config ∧
      ∃ error, (templateRegistered config).outcome answers = .raised error) := by
  cases found : answers.to .templateOrOva 2 (.isFile config.virtualbox.vboxmanage) with
  | error message =>
    exact .inr ⟨by simp [Registers, found],
      by simp [templateRegistered, found]⟩
  | ok present =>
    cases present with
    | false => exact .inl ⟨⟨false, found, by simp⟩, by simp [templateRegistered, found]⟩
    | true =>
      cases bound : answers.to .templateOrOva 3 (.isFile config.virtualbox.vboxmanage) with
      | error message =>
        exact .inr ⟨by simp [Registers, found, bound],
          by simp [templateRegistered, found, bound]⟩
      | ok there =>
        cases there with
        | false =>
          exact .inr ⟨by simp [Registers, found, bound],
            by simp [templateRegistered, found, bound]⟩
        | true =>
          cases ran : answers.to .templateOrOva 4 (.invoke .listVms 120) with
          | error fault =>
            refine .inr ⟨by simp [Registers, found, bound, ran, succeeded], ?_⟩
            cases fault <;> simp [templateRegistered, found, bound, ran, isRegistered, listVms]
          | ok result =>
            cases good : result.ok with
            | true =>
              exact .inl ⟨⟨true, found, by simp [bound, ran, succeeded, good]⟩,
                by simp [templateRegistered, found, bound, ran, good, isRegistered, listVms]⟩
            | false =>
              exact .inr ⟨by simp [Registers, found, bound, ran, succeeded, good],
                by simp [templateRegistered, found, bound, ran, good, isRegistered, listVms]⟩

theorem settles_templateOrOva :
    Settles answers config .templateOrOva (checkTemplateOrOva config oneDecimal) := by
  cases found : answers.to .templateOrOva 0 (.isFile config.virtualbox.templateOva) with
  | error message => exact .inr ⟨by simp [Graceful, found], by simp [checkTemplateOrOva, found]⟩
  | ok built =>
    cases built with
    | true =>
      cases known : answers.to .templateOrOva 1 (.statSize config.virtualbox.templateOva) with
      | error message =>
        exact .inr ⟨by simp [Graceful, found, known],
          by simp [checkTemplateOrOva, found, known]⟩
      | ok size =>
        exact .inl ⟨⟨true, found, fun _ => ⟨size, known⟩, by simp⟩,
          by simp [checkTemplateOrOva, found, known]⟩
    | false =>
      obtain ⟨registers, registered, answered⟩ | ⟨missing, error, raised⟩ :=
        registered_settles answers config
      · refine .inl ⟨⟨false, found, by simp, fun _ => registers⟩, ?_⟩
        cases registered <;> simp [checkTemplateOrOva, found, answered]
      · refine .inr ⟨?_, error, by simp [checkTemplateOrOva, found, raised]⟩
        rintro ⟨built, found', -, registers⟩
        cases found.symm.trans found'
        exact missing (registers rfl)

variable {answers config}

theorem Settles.returns {check : Check} {p : CheckProg CheckResult}
    (settles : Settles answers config check p) (graceful : Graceful answers config check) :
    ∃ result, p.outcome answers = .returned result ∧ result.name = check.name :=
  (settles.resolve_right fun missing => missing.1 graceful).2

theorem Settles.raises_or {check : Check} {p : CheckProg CheckResult}
    (settles : Settles answers config check p) :
    (∃ error, p.outcome answers = .raised error) ∨
      Graceful answers config check ∧ ∃ result, p.outcome answers = .returned result := by
  obtain ⟨graceful, result, returned, -⟩ | ⟨-, raises⟩ := settles
  · exact .inr ⟨graceful, result, returned⟩
  · exact .inl raises

end Each

section Run

variable (answers : Answers) (config : ClusterConfig) (oneDecimal : Float → String)

theorem preflight_returns (graceful : ∀ check, Graceful answers config check) :
    ∃ results, (runPreflight config oneDecimal).outcome answers = .returned results ∧
      results.map CheckResult.name = Check.all.map Check.name := by
  obtain ⟨vboxmanage, ended₁, named₁⟩ :=
    (settles_vboxmanage answers config).returns (graceful .vboxmanage)
  obtain ⟨sshKey, ended₂, named₂⟩ :=
    (settles_sshKey answers config).returns (graceful .sshKey)
  obtain ⟨keyDirectory, ended₃, named₃⟩ :=
    (settles_keyDirectory answers config).returns (graceful .keyDirectory)
  obtain ⟨hostRam, ended₄, named₄⟩ :=
    (settles_hostRam answers config).returns (graceful .hostRam)
  obtain ⟨hostDisk, ended₅, named₅⟩ :=
    (settles_hostDisk answers config oneDecimal).returns (graceful .hostDisk)
  obtain ⟨templateOrOva, ended₆, named₆⟩ :=
    (settles_templateOrOva answers config oneDecimal).returns (graceful .templateOrOva)
  refine ⟨[vboxmanage, sshKey, keyDirectory, hostRam, hostDisk, templateOrOva], ?_, ?_⟩
  · simp [runPreflight, ended₁, ended₂, ended₃, ended₄, ended₅, ended₆, Outcome.andThen]
  · simp [Check.all, named₁, named₂, named₃, named₄, named₅, named₆]

-- The first check whose requests go wrong ends the run.
theorem preflight_raises (missing : ¬ ∀ check, Graceful answers config check) :
    ∃ error, (runPreflight config oneDecimal).outcome answers = .raised error := by
  obtain ⟨error, raised⟩ | ⟨graceful₁, _, ended₁⟩ :=
    (settles_vboxmanage answers config).raises_or
  · exact ⟨error, by simp [runPreflight, raised, Outcome.andThen]⟩
  obtain ⟨error, raised⟩ | ⟨graceful₂, _, ended₂⟩ :=
    (settles_sshKey answers config).raises_or
  · exact ⟨error, by simp [runPreflight, ended₁, raised, Outcome.andThen]⟩
  obtain ⟨error, raised⟩ | ⟨graceful₃, _, ended₃⟩ :=
    (settles_keyDirectory answers config).raises_or
  · exact ⟨error, by simp [runPreflight, ended₁, ended₂, raised, Outcome.andThen]⟩
  obtain ⟨error, raised⟩ | ⟨graceful₄, _, ended₄⟩ :=
    (settles_hostRam answers config).raises_or
  · exact ⟨error, by simp [runPreflight, ended₁, ended₂, ended₃, raised, Outcome.andThen]⟩
  obtain ⟨error, raised⟩ | ⟨graceful₅, _, ended₅⟩ :=
    (settles_hostDisk answers config oneDecimal).raises_or
  · exact ⟨error, by simp [runPreflight, ended₁, ended₂, ended₃, ended₄, raised, Outcome.andThen]⟩
  obtain ⟨error, raised⟩ | ⟨graceful₆, _, ended₆⟩ :=
    (settles_templateOrOva answers config oneDecimal).raises_or
  · exact ⟨error, by
      simp [runPreflight, ended₁, ended₂, ended₃, ended₄, ended₅, raised, Outcome.andThen]⟩
  refine absurd ?_ missing
  intro check
  cases check <;> assumption

end Run

def hangingHost : (op : HostOp) → op.Reply
  | .isFile _ => .ok true
  | op => HostOp.idle (.error .timeoutExpired) op

def hangingAnswers : Answers
  | (_, .inl op) => hangingHost op
  | (_, .inr (.writeText _ _)) => .ok ()
  | (_, .inr (.diskUsage _)) => .ok 0
  | (_, .inr .platformSystem) => "Linux"
  | (_, .inr .hasWindll) => false
  | (_, .inr .globalMemoryStatusEx) => none
  | (_, .inr .hasSysconf) => true
  | (_, .inr (.sysconf name)) => .ok (if name = "SC_PAGE_SIZE" then 4096 else 4194304)

end VmDeploy.Preflight
