import VmDeploy.Provision.Scope
import VmDeploy.VirtualBox.Alterations

/-! What has become of the machines when a guest is refused for its hostname, the SSH user,
the public key file or the appliance. -/

set_option autoImplicit false

open Effects Python

namespace VmDeploy.Provision

open VirtualBox

variable {G : Signature}

/-- The files of a deployment, and the appliances that `VBoxManage import` takes. -/
structure Files where
  ova : Option (List UInt8)
  publicKey : Except String (List UInt8)
  importable : List UInt8 → Bool

def Files.usable (files : Files) : Bool :=
  files.ova.any files.importable

def Files.imports (files : Files) : Except RunFault ProcessResult → Except RunFault ProcessResult
  | .ok result =>
      .ok (if files.usable then result
        else if result.ok then { result with exitStatus := 1 } else result)
  | .error fault => .error fault

def Files.answers (files : Files) (config : ClusterConfig) (reply : (op : HostOp) → op.Reply) :
    (op : HostOp) → op.Reply
  | .isFile path =>
      if path = config.virtualbox.templateOva then .ok files.ova.isSome else reply (.isFile path)
  | .readBytes path =>
      if publicKeyPath config.ssh.keyPath = .ok path then files.publicKey
      else reply (.readBytes path)
  | .invoke (.importVm source vm) timeout =>
      files.imports (reply (.invoke (.importVm source vm) timeout))
  | op => reply op

/-- An import registers a machine exactly when it succeeds. -/
def Files.choose (files : Files) (config : ClusterConfig) (op : HostOp) (x : HypervisorChoice) :
    HypervisorChoice where
  reply := files.answers config x.reply
  took :=
    match op with
    | .invoke (.importVm source vm) timeout =>
        succeeded (files.imports (x.reply (.invoke (.importVm source vm) timeout)))
    | _ => x.took
  uuid := x.uuid

def fileStep (files : Files) (config : ClusterConfig) :
    Step hostSignature Hypervisor HypervisorChoice :=
  fun x op world => hypervisorStep (files.choose config op x) op world

def filesStep (files : Files) (config : ClusterConfig) :
    Step (hostSignature.sum G) Hypervisor (HypervisorChoice × ((op : G.Op) → G.Reply op)) :=
  (fileStep files config).sum fun x op world => (x op, world)

/-- The error says that the hostname, the user, the public key file or the appliance is
unusable, and it is. -/
inductive Blamed (files : Files) (config : ClusterConfig) (host : HostConfig) : PyError → Prop
  | missing : files.ova = none →
      Blamed files config host (.virtualBoxError ["import", config.virtualbox.templateOva] (-1)
        "appliance file not found")
  | refused (exitStatus : Int) (stderr : String) : files.usable = false →
      Blamed files config host (.virtualBoxError
        (Command.importVm config.virtualbox.templateOva host.vmName).args exitStatus stderr)
  | hostname (failure : PyError) : Seed.validateHostname host.hostname.toList = .error failure →
      Blamed files config host failure
  | username (failure : PyError) : Seed.validateUsername config.ssh.user.toList = .error failure →
      Blamed files config host failure
  | keyFile (failure : PyError) : (do
        let path ← publicKeyPath config.ssh.keyPath
        let key ← publicKeyOf path files.publicKey
        Seed.validatePublicKey key) = .error failure →
      Blamed files config host failure

section Import

variable {files : Files} {config : ClusterConfig} {host : HostConfig}

/-- Errors of the package's own checks, and of text that cannot be decoded. -/
def Refusal : PyError → Prop
  | .vmDeployError _ | .valueError _ => True
  | _ => False

theorem validatePublicKey_refusal {key : Text} {failure : PyError}
    (refused : Seed.validatePublicKey key = .error failure) : Refusal failure := by
  unfold Seed.validatePublicKey at refused
  dsimp only at refused
  split_ifs at refused
  all_goals
    cases refused
    trivial

theorem publicKeyOf_refusal {path : String} {bytes : Except String (List UInt8)}
    {failure : PyError} (refused : publicKeyOf path bytes = .error failure) : Refusal failure := by
  unfold publicKeyOf at refused
  split at refused
  · cases refused
    trivial
  · split at refused
    · cases refused
      trivial
    · cases refused

-- The error is one of the package's checks, or the appliance is unusable and the import
-- names it.
theorem Blamed.cases {failure : PyError} (blamed : Blamed files config host failure) :
    Refusal failure ∨ files.usable = false ∧
      ∃ args exitStatus stderr, failure = .virtualBoxError ("import" :: args) exitStatus stderr := by
  cases blamed with
  | missing absent => exact .inr ⟨by simp [Files.usable, absent], _, _, _, rfl⟩
  | refused exitStatus stderr unusable => exact .inr ⟨unusable, _, _, _, rfl⟩
  | hostname _ refused =>
    unfold Seed.validateHostname at refused
    split at refused
    · cases refused
    · cases refused
      exact .inl trivial
  | username _ refused =>
    unfold Seed.validateUsername at refused
    split at refused
    · cases refused
    · cases refused
      exact .inl trivial
  | keyFile _ refused =>
    left
    cases path : publicKeyPath config.ssh.keyPath with
    | error other =>
      rw [path] at refused
      cases refused
      unfold publicKeyPath at path
      dsimp only at path
      split at path
      · cases path
        trivial
      · cases path
    | ok found =>
      rw [path] at refused
      cases text : publicKeyOf found files.publicKey with
      | error other =>
        simp only [bind, Except.bind, text] at refused
        cases refused
        exact publicKeyOf_refusal text
      | ok key =>
        simp only [bind, Except.bind, text] at refused
        exact validatePublicKey_refusal refused

theorem Blamed.not_elsewhere {failure : PyError} (blamed : Blamed files config host failure) :
    ¬ Elsewhere failure := by
  rcases blamed.cases with refusal | ⟨-, args, exitStatus, stderr, rfl⟩
  · cases failure <;> first | exact refusal.elim | exact id
  · exact fun other => other rfl

theorem Blamed.unusable {args : List String} {exitStatus : Int} {stderr : String}
    (blamed : Blamed files config host (.virtualBoxError args exitStatus stderr)) :
    files.usable = false := by
  rcases blamed.cases with refusal | ⟨unusable, -⟩
  · exact refusal.elim
  · exact unusable

theorem imports_ok {reply : Except RunFault ProcessResult} {result : ProcessResult}
    (ended : files.imports reply = .ok result) (good : result.ok = true) : files.usable = true := by
  cases usable : files.usable with
  | true => rfl
  | false =>
    cases reply with
    | error fault => cases ended
    | ok before =>
      simp only [Files.imports, usable, Bool.false_eq_true, if_false, Except.ok.injEq] at ended
      split at ended
      · subst ended
        simp [ProcessResult.ok] at good
      · next bad =>
        subst ended
        exact absurd good bad

/-- An import that returns has registered a machine, from a usable appliance; one that
fails has altered nothing. -/
def ImportEnds (files : Files) (config : ClusterConfig) (host : HostConfig) (world : Hypervisor) :
    Outcome PyError Unit → Hypervisor → Prop
  | .returned _, after => files.usable = true ∧
      world.alterations.length < after.alterations.length
  | .raised failure, after => Untouched world after ∧
      (Blamed files config host failure → files.usable = false)
  | .stopped, _ => True

theorem always_importAppliance (world : Hypervisor) :
    Always (fileStep files config)
      (importAppliance config.virtualbox.templateOva host.vmName) world
      (ImportEnds files config host world) := by
  have same : Untouched world world := ⟨rfl, rfl⟩
  unfold importAppliance
  refine always_call trivial ?_
  intro x
  have asked : (fileStep files config x (.isFile config.virtualbox.templateOva) world) =
      (.ok files.ova.isSome, world) := by
    simp [fileStep, hypervisorStep, Files.choose, Files.answers]
  rw [asked]
  cases files.ova.isSome with
  | false => exact always_raise ⟨same, Blamed.unusable⟩
  | true =>
    refine always_call trivial ?_
    intro y
    let command := Command.importVm config.virtualbox.templateOva host.vmName
    let chosen := files.choose config (.invoke command applianceTimeoutSeconds) y
    have ran : fileStep files config y (.invoke command applianceTimeoutSeconds) world =
        (files.imports (y.reply (.invoke command applianceTimeoutSeconds)),
          world.perform chosen command) := rfl
    have failed (missed : chosen.took = false) : Untouched world (world.perform chosen command) :=
      perform_untouched world (.inl missed)
    have took : chosen.took =
        succeeded (files.imports (y.reply (.invoke command applianceTimeoutSeconds))) := rfl
    rw [ran]
    generalize ended : files.imports (y.reply (.invoke command applianceTimeoutSeconds)) = reply
      at took
    cases reply with
    | error fault =>
      cases fault with
      | timeoutExpired => exact always_raise ⟨failed took, Blamed.unusable⟩
      | osError text => exact always_raise ⟨failed took, Blamed.unusable⟩
    | ok result =>
      cases good : result.ok with
      | false =>
        have missed : chosen.took = false := took.trans good
        simp only [Prog.bind, completed, good, Bool.not_false, Bool.and_self, if_true]
        exact always_raise ⟨failed missed, Blamed.unusable⟩
      | true =>
        have registers : chosen.took = true := took.trans good
        simp only [Prog.bind, completed, good, Bool.not_true, Bool.and_false, Bool.false_eq_true,
          if_false]
        apply always_done
        refine ⟨imports_ok ended good, ?_⟩
        simp [Hypervisor.perform, Hypervisor.alterations, registers, command, Command.alters]

/-- Whether the machines were altered, for every error that blames an input. -/
def Settles (files : Files) (config : ClusterConfig) (host : HostConfig) (world : Hypervisor)
    {A : Type} : Outcome PyError A → Hypervisor → Prop
  | .raised failure, after => Blamed files config host failure →
      (Untouched world after ↔ files.usable = false ∧ ¬ world.Shows host.vmName)
  | _, _ => True

-- Once an appliance has been imported, no error leaves the machines as they were.
theorem imported_settles {A : Type} {world after : Hypervisor} (usable : files.usable = true)
    (more : world.alterations.length < after.alterations.length) (outcome : Outcome PyError A) :
    Settles files config host world outcome after := by
  cases outcome with
  | raised failure =>
    intro _
    constructor
    · intro untouched
      rw [untouched.2] at more
      exact absurd more (Nat.lt_irrefl _)
    · intro condition
      rw [usable] at condition
      exact absurd condition.1 (by decide)
  | returned value => trivial
  | stopped => trivial

-- Alterations are never taken back.
theorem always_more {I : Signature} {X A : Type} (step : Step I Hypervisor X)
    (grows : ∀ x op world, world.alterations.length ≤ (step x op world).2.alterations.length)
    (p : Prog I PyError A) (world : Hypervisor) :
    Always step p world
      (fun _ after => world.alterations.length ≤ after.alterations.length) := by
  apply always_only _ world (Prog.only_true p) (fun _ => Nat.le_refl _)
  · exact fun _ _ _ => Nat.le_trans
  · exact fun x op before _ => grows x op before

/-- A return has imported a machine from a usable appliance; errors tell what happened. -/
def ImportSettles (files : Files) (config : ClusterConfig) (host : HostConfig)
    (world : Hypervisor) : Outcome PyError Unit → Hypervisor → Prop
  | .returned _, after => files.usable = true ∧
      world.alterations.length < after.alterations.length
  | .raised failure, after =>
      Settles files config host world (.raised failure : Outcome PyError Unit) after
  | .stopped, _ => True

theorem elsewhere_settles {A : Type} {world after : Hypervisor} {failure : PyError}
    (elsewhere : Elsewhere failure) :
    Settles files config host world (.raised failure : Outcome PyError A) after :=
  fun blamed => absurd elsewhere blamed.not_elsewhere

theorem bridgeInterfaceOf_still (vm : String) : (bridgeInterfaceOf vm).Only HostOp.Still := by
  apply Prog.Only.bind (run_only HostOp.Still (by exact rfl) _)
  intro _
  trivial

theorem bridgeInterfaceOf_elsewhere (vm : String) : (bridgeInterfaceOf vm).Raises Elsewhere := by
  apply Prog.Raises.bind (run_elsewhere (by simp [Command.args]) _ _)
  intro _
  trivial

-- What `destroy` leaves: nothing altered when the machine was hidden, and a hidden machine
-- when it returns.
theorem always_destroy (polls : Nat) (world : Hypervisor) :
    Always (fileStep files config) (destroy polls host.vmName destroyAttempts) world
      (fun outcome after => (¬ world.Shows host.vmName → Untouched world after) ∧
        (outcome = .returned () → ¬ after.Shows host.vmName) ∧
        (∀ failure, outcome = .raised failure → Elsewhere failure) ∧
        world.alterations.length ≤ after.alterations.length) := by
  have spec : Always hypervisorStep (destroy polls host.vmName destroyAttempts) world
      (fun outcome after => (¬ world.Shows host.vmName → Untouched world after) ∧
        (outcome = .returned () → ¬ after.Shows host.vmName) ∧
        (∀ failure, outcome = .raised failure → Elsewhere failure) ∧
        world.alterations.length ≤ after.alterations.length) := by
    intro script
    refine ⟨?_, ?_, ?_, ?_⟩
    · exact fun hidden => (upholds_destroy_hidden polls destroyAttempts hidden script).1
    · exact (upholds_destroy polls host.vmName destroyAttempts world script).2 ()
    · exact always_raises (destroy_elsewhere polls host.vmName destroyAttempts) world script
    · exact always_more hypervisorStep step_alterations _ world script
  exact spec.narrow (files.choose config)

theorem always_importGuest (polls : Nat) (world : Hypervisor) :
    Always (fileStep files config) (importGuest polls config host) world
      (ImportSettles files config host world) := by
  have looks : Always (fileStep files config)
      (bridgeInterfaceOf config.virtualbox.templateVm) world
      (fun outcome after => Untouched world after ∧
        ∀ failure, outcome = .raised failure → Elsewhere failure) := by
    have still := upholds_still (bridgeInterfaceOf_still config.virtualbox.templateVm) world
    have elsewhere : Always hypervisorStep (bridgeInterfaceOf config.virtualbox.templateVm) world _ :=
      always_raises (bridgeInterfaceOf_elsewhere config.virtualbox.templateVm) world
    have both : Always hypervisorStep (bridgeInterfaceOf config.virtualbox.templateVm) world
        (fun outcome after => Untouched world after ∧
          ∀ failure, outcome = .raised failure → Elsewhere failure) :=
      fun script => ⟨(still script).1, elsewhere script⟩
    exact both.narrow (files.choose config)
  refine always_bind (looks.mono ?_)
  rintro outcome first ⟨looked, elsewhere⟩
  cases outcome with
  | stopped => trivial
  | raised failure => exact elsewhere_settles (A := Unit) (elsewhere _ rfl)
  | returned bridge =>
    refine always_bind ((always_destroy polls first).mono ?_)
    rintro outcome second ⟨spared, hidden, elsewhere, grown⟩
    rw [looked.2] at grown
    cases outcome with
    | stopped => trivial
    | raised failure => exact elsewhere_settles (A := Unit) (elsewhere _ rfl)
    | returned _ =>
      refine always_bind ((always_importAppliance second).mono ?_)
      intro outcome third ends
      cases outcome with
      | stopped => trivial
      | raised failure =>
        intro blamed
        constructor
        · intro untouched
          refine ⟨ends.2 blamed, fun shown => ?_⟩
          have gone := mt (ends.1.shows host.vmName).mp (hidden rfl)
          exact gone ((untouched.shows host.vmName).mpr shown)
        · intro condition
          have unseen := mt (looked.shows host.vmName).mp condition.2
          exact (looked.trans (spared unseen)).trans ends.1
      | returned _ =>
        -- the machine is imported, and whatever follows only adds to that
        refine (always_more (fileStep files config) (fun _ _ => step_alterations _ _) _ third).mono ?_
        intro outcome last later
        have more : world.alterations.length < last.alterations.length :=
          Nat.lt_of_lt_of_le (Nat.lt_of_le_of_lt grown ends.2) later
        cases outcome with
        | stopped => trivial
        | raised failure => exact imported_settles ends.1 more (.raised failure : Outcome PyError Unit)
        | returned _ => exact ⟨ends.1, more⟩

end Import

/-- An error that blames the hostname, the user, the public key file or the appliance leaves
the machines as they were exactly when the appliance is unusable and no machine of the name
was listed: the other checks come after the old machine is deleted and the new one imported. -/
theorem refusal_spares_iff (polls : Nat) (steps : GuestSteps G) (config : ClusterConfig)
    (host : HostConfig) (files : Files) {world after : Hypervisor}
    {script : List (HypervisorChoice × ((op : G.Op) → G.Reply op))} {failure : PyError}
    (raised : (provisionHost polls steps config host).eval (filesStep files config) world script =
      (.raised failure, after)) (blamed : Blamed files config host failure) :
    Untouched world after ↔ files.usable = false ∧ ¬ world.Shows host.vmName := by
  have settles : Always (filesStep files config) (provisionHost polls steps config host) world
      (Settles files config host world) := by
    refine always_bind ((always_liftLeft (always_importGuest polls world)).mono ?_)
    intro outcome middle ends
    cases outcome with
    | stopped => trivial
    | raised failure => exact ends
    | returned _ =>
      have grows : ∀ x op (before : Hypervisor), before.alterations.length ≤
          (filesStep (G := G) files config x op before).2.alterations.length := by
        intro x op before
        cases op with
        | inl op => exact step_alterations _ op before
        | inr op => exact Nat.le_refl _
      refine (always_more (filesStep files config) grows _ middle).mono ?_
      exact fun outcome last later =>
        imported_settles ends.1 (Nat.lt_of_lt_of_le ends.2 later) outcome
  have here := settles script
  rw [raised] at here
  exact here blamed

def obliging : HypervisorChoice where
  reply := HostOp.idle (.ok ⟨0, "", ""⟩)
  took := true
  uuid := "b0c4".toList

def silentGuest : GuestSteps noGuestOps where
  waitForSsh _ _ _ := pure ()
  connect _ _ := pure ()
  waitForCloudInit _ _ := pure ()
  hostname _ := pure ""
  close _ := pure ()

def deployedFiles : Files where
  ova := some [0x75, 0x73, 0x74, 0x61, 0x72]
  publicKey := .ok ("ssh-ed25519 AAAA ada@host\n".toList.map fun c => UInt8.ofNat c.toNat)
  importable bytes := bytes.length = 5

/-- Accepted by the configuration, and refused by the seed. -/
def underscored : ClusterConfig :=
  Config.exampleCluster "ap_jump" Config.exampleNodes

def refusedRun (files : Files) (config : ClusterConfig) : Outcome PyError String × Hypervisor :=
  (provisionHost 24 silentGuest config config.jump).eval (filesStep files config) exampleMachines
    (List.replicate 40 (obliging, Empty.rec))

theorem refusedRun_outcome : refusedRun deployedFiles underscored =
    (.raised (Seed.invalidHostname "ap_jump".toList),
      ⟨[⟨"apubuntuD".toList, "5c1f".toList⟩, ⟨"box\" \x7bold\x7d".toList, "77aa".toList⟩,
        ⟨"apjump".toList, "b0c4".toList⟩], (refusedRun deployedFiles underscored).2.issued⟩) := by
  rfl

/-- The old machine is deleted and a new one imported before the hostname is refused. -/
theorem machine_lost_before_refusal :
    Config.loadClusterConfig Config.examplePlatform "config/cluster.toml"
      (.parsed (Config.exampleDocument "ap_jump"
        [Config.exampleBackend "apnode1" "apnode1", Config.exampleBackend "apnode2" "apnode2"]))
      none = .ok underscored ∧
    ∃ failure, (refusedRun deployedFiles underscored).1 = .raised failure ∧
      Blamed deployedFiles underscored underscored.jump failure ∧
      ¬ Untouched exampleMachines (refusedRun deployedFiles underscored).2 := by
  refine ⟨by rfl, _, by rw [refusedRun_outcome], .hostname _ (by rfl), ?_⟩
  rw [refusedRun_outcome]
  rintro ⟨machines, -⟩
  exact absurd machines (by decide)

/-- Without an appliance, and with no machine of the name, nothing is touched. -/
theorem missing_appliance_spares : Untouched
    { exampleMachines with machines := [⟨"apubuntuD".toList, "5c1f".toList⟩] }
    ((provisionHost 24 silentGuest underscored underscored.jump).eval
      (filesStep { deployedFiles with ova := none } underscored)
      { exampleMachines with machines := [⟨"apubuntuD".toList, "5c1f".toList⟩] }
      (List.replicate 40 (obliging, Empty.rec))).2 :=
  (refusal_spares_iff 24 silentGuest underscored underscored.jump
    { deployedFiles with ova := none }
    (by rw [Prod.eq_iff_fst_eq_snd_eq]; exact ⟨rfl, rfl⟩) (.missing rfl)).mpr
    ⟨rfl, by decide⟩

end VmDeploy.Provision
