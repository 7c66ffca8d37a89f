import VmDeploy.Config.Accepted
import VmDeploy.Provision.Cluster
import VmDeploy.VirtualBox.Registry

/-! Which machines a deployment and a teardown may stop or delete. -/

set_option autoImplicit false

open Effects Python

namespace VmDeploy.VirtualBox

def Command.ends : Command → Option String
  | .controlvm vm _ | .unregistervm vm => some vm
  | _ => none

def HostOp.Within (names : List String) : HostOp → Prop
  | .invoke command _ => ∀ vm ∈ command.ends, vm ∈ names
  | _ => True

section Within

variable {names : List String}

theorem ask_within {op : HostOp} (within : op.Within names) : (ask op).Only (HostOp.Within names) :=
  ⟨within, fun _ => trivial⟩

theorem run_within {command : Command} (harmless : command.ends = none) (check : Bool)
    (timeout : Nat) : (run command check timeout).Only (HostOp.Within names) := by
  apply run_only
  intro vm member
  rw [harmless] at member
  cases member

theorem orOsError_within {A : Type} (reply : Except String A) :
    (orOsError reply).Only (HostOp.Within names) :=
  orOsError_only reply _

theorem raising_within {A : Type} (result : Except PyError A) :
    (raising result).Only (HostOp.Within names) := by
  cases result <;> trivial

theorem stops_within {vm : String} (member : vm ∈ names) {op : HostOp} (stops : op.Stops vm) :
    op.Within names := by
  cases op with
  | invoke command timeout =>
    cases command with
    | controlvm name action =>
      intro other same
      cases same
      rw [show name = vm from stops]
      exact member
    | showvminfo name => exact fun other same => absurd same (by simp [Command.ends])
    | _ => exact stops.elim
  | _ => trivial

theorem isRegistered_within (vm : String) : (isRegistered vm).Only (HostOp.Within names) := by
  apply Prog.Only.bind
  · apply Prog.Only.bind (run_within rfl _ _)
    intro _
    trivial
  · intro _
    trivial

theorem deleteUntilGone_within {vm : String} (member : vm ∈ names) (attempts left : Nat)
    (lastError : String) :
    (deleteUntilGone vm attempts left lastError).Only (HostOp.Within names) := by
  induction left generalizing lastError with
  | zero => trivial
  | succ left ih =>
    apply Prog.Only.bind
    · apply run_only
      intro other same
      cases same
      exact member
    intro result
    apply Prog.Only.bind (isRegistered_within vm)
    intro found
    split
    · apply Prog.Only.bind
      · exact ask_within trivial
      intro _
      exact ih _
    · trivial

theorem destroy_within (polls : Nat) {vm : String} (member : vm ∈ names) (attempts : Nat) :
    (destroy polls vm attempts).Only (HostOp.Within names) := by
  apply Prog.Only.bind (isRegistered_within vm)
  intro found
  split
  · apply Prog.Only.bind
    · exact (powerOff_only polls vm 120).mono fun _ => stops_within member
    intro _
    exact deleteUntilGone_within member attempts attempts ""
  · trivial

theorem importAppliance_within (source vm : String) :
    (importAppliance source vm).Only (HostOp.Within names) := by
  apply Prog.Only.bind
  · exact ask_within trivial
  intro reply
  apply Prog.Only.bind (orOsError_within reply)
  intro present
  split
  · apply Prog.Only.bind (run_within rfl _ _)
    intro _
    trivial
  · trivial

theorem attachOptical_within (vm isoPath : String) :
    (attachOptical vm isoPath).Only (HostOp.Within names) := by
  apply Prog.Only.bind
  · apply Prog.Only.bind (run_within rfl _ _)
    intro info
    dsimp only
    split <;> trivial
  intro slot
  apply Prog.Only.bind (run_within rfl _ _)
  intro _
  trivial

theorem guestIpv4Interfaces_within (vm : String) :
    (guestIpv4Interfaces vm).Only (HostOp.Within names) := by
  apply Prog.Only.bind (run_within rfl _ _)
  intro result
  split
  · apply Prog.Only.bind
    · exact ask_within trivial
    intro digitLimit
    split <;> trivial
  · trivial

theorem pollAddress_within (vm hostname : String) (hostLan : Text) (deadline polls : Nat) :
    (pollAddress vm hostname hostLan deadline polls).Only (HostOp.Within names) := by
  induction polls with
  | zero => trivial
  | succ polls ih =>
    apply Prog.Only.bind
    · exact ask_within trivial
    intro now
    split
    · apply Prog.Only.bind
      · exact guestIpv4Interfaces_within vm
      intro interfaces
      dsimp only
      split
      · trivial
      apply Prog.Only.bind
      · apply Prog.Only.bind
        · exact ask_within trivial
        intro reply
        split <;> trivial
      intro resolved
      split
      · trivial
      apply Prog.Only.bind
      · exact ask_within trivial
      intro _
      exact ih
    · trivial

theorem waitForGuestIp_within (polls : Nat) (vm hostname : String) (timeoutSeconds : Nat) :
    (waitForGuestIp polls vm hostname timeoutSeconds).Only (HostOp.Within names) := by
  apply Prog.Only.bind
  · apply Prog.Only.bind
    · exact ask_within trivial
    intro reply
    split <;> trivial
  intro hostLan
  apply Prog.Only.bind
  · exact ask_within trivial
  intro started
  apply Prog.Only.bind (pollAddress_within _ _ _ _ _)
  intro address
  split <;> trivial

end Within

end VmDeploy.VirtualBox

namespace VmDeploy.Provision

open VirtualBox

variable {G : Signature} {names : List String}

theorem importGuest_within (polls : Nat) (config : ClusterConfig) {host : HostConfig}
    (member : host.vmName ∈ names) :
    (importGuest polls config host).Only (HostOp.Within names) := by
  apply Prog.Only.bind
  · apply Prog.Only.bind (run_within rfl _ _)
    intro _
    trivial
  intro bridge
  apply Prog.Only.bind (destroy_within polls member _)
  intro _
  apply Prog.Only.bind (importAppliance_within _ _)
  intro _
  apply Prog.Only.bind
  · apply Prog.Only.bind (run_within rfl _ _)
    intro _
    trivial
  intro _
  split
  · apply Prog.Only.bind (run_within rfl _ _)
    intro _
    trivial
  · trivial

theorem seedGuest_within (config : ClusterConfig) (host : HostConfig) :
    (seedGuest config host).Only (HostOp.Within names) := by
  apply Prog.Only.bind
  · apply Prog.Only.bind (raising_within _)
    intro path
    apply Prog.Only.bind
    · exact ask_within trivial
    intro reply
    exact raising_within _
  intro key
  apply Prog.Only.bind
  · apply Prog.Only.bind
    · exact ask_within trivial
    intro token
    apply Prog.Only.bind (raising_within _)
    intro documents
    apply Prog.Only.bind
    · exact ask_within trivial
    intro made
    apply Prog.Only.bind (orOsError_within _)
    intro _
    apply Prog.Only.bind
    · exact ask_within trivial
    intro removed
    apply Prog.Only.bind (orOsError_within _)
    intro _
    apply Prog.Only.bind
    · exact ask_within trivial
    intro written
    split <;> trivial
  intro _
  exact attachOptical_within _ _

theorem bootGuest_within (polls : Nat) (config : ClusterConfig) (host : HostConfig) :
    (bootGuest polls config host).Only (HostOp.Within names) := by
  apply Prog.Only.bind
  · apply Prog.Only.bind
    · apply state_only
      intro _ vm member
      cases member
    intro seen
    split
    · trivial
    · apply Prog.Only.bind (run_within rfl _ _)
      intro _
      trivial
  intro _
  exact waitForGuestIp_within polls _ _ _

theorem provisionHost_within (polls : Nat) (steps : GuestSteps G) (config : ClusterConfig)
    {host : HostConfig} (member : host.vmName ∈ names) :
    (provisionHost polls steps config host).Only
      (Sum.elim (HostOp.Within names) fun _ => True) := by
  apply Prog.Only.bind (Prog.only_liftLeft (importGuest_within polls config member))
  intro _
  apply Prog.Only.bind (Prog.only_liftLeft (seedGuest_within config host))
  intro _
  apply Prog.Only.bind (Prog.only_liftLeft (bootGuest_within polls config host))
  intro address
  apply Prog.Only.bind (Prog.only_liftRight (Prog.only_true _))
  intro _
  trivial

/-- The hypervisor beside guests that answer anything. -/
def deployStep : Step (hostSignature.sum G) Hypervisor
    (HypervisorChoice × ((op : G.Op) → G.Reply op)) :=
  hypervisorStep.sum fun x op world => (x op, world)

/-- Every new command that stops or deletes a machine names one of the given ones, and
every other machine is still registered. -/
structure Spared (names : List String) (world after : Hypervisor) : Prop where
  commands : ∃ issued, after.issued = world.issued ++ issued ∧
    ∀ entry ∈ issued, ∀ vm ∈ entry.command.ends, vm ∈ names
  foreign : ∀ machine ∈ world.machines, (∀ vm ∈ names, machine.name ≠ vm.toList) →
    machine ∈ after.machines

theorem Spared.refl (names : List String) (world : Hypervisor) : Spared names world world :=
  ⟨⟨[], by simp, by simp⟩, fun _ member _ => member⟩

theorem Spared.trans {first second third : Hypervisor} (early : Spared names first second)
    (late : Spared names second third) : Spared names first third := by
  obtain ⟨before, same, within⟩ := early.commands
  obtain ⟨later, same', within'⟩ := late.commands
  constructor
  · refine ⟨before ++ later, by rw [same', same, List.append_assoc], ?_⟩
    intro entry member
    rcases List.mem_append.mp member with member | member
    · exact within entry member
    · exact within' entry member
  · exact fun machine member other => late.foreign machine (early.foreign machine member other) other

theorem within_spares {op : HostOp} (within : op.Within names) (x : HypervisorChoice)
    (world : Hypervisor) : Spared names world (hypervisorStep x op world).2 := by
  cases op with
  | invoke command timeout =>
    constructor
    · refine ⟨[⟨command, x.took⟩], rfl, ?_⟩
      intro entry member
      rw [List.mem_singleton.mp member]
      exact within
    · intro machine member other
      simp only [hypervisorStep, Hypervisor.perform]
      split
      · cases command with
        | unregistervm vm =>
          apply List.mem_filter.mpr
          exact ⟨member, by simpa using other vm (within vm rfl)⟩
        | importVm source vm => exact List.mem_append_left _ member
        | _ => exact member
      · exact member
  | _ => exact Spared.refl names world

theorem always_spared {A : Type} {p : VBoxProg A} (within : p.Only (HostOp.Within names))
    (world : Hypervisor) :
    Always hypervisorStep p world (fun _ after => Spared names world after) := by
  apply always_only (Spared names) world within (Spared.refl names)
  · exact fun _ _ _ => Spared.trans
  · exact fun x op before here => within_spares here x before

theorem provisionHosts_within (polls : Nat) (steps : GuestSteps G) (config : ClusterConfig)
    (addresses : Dict String String) {hosts : List HostConfig}
    (members : ∀ host ∈ hosts, host.vmName ∈ names) :
    (provisionHosts (provisionHost polls steps config) addresses hosts).Only
      (Sum.elim (HostOp.Within names) fun _ => True) := by
  induction hosts generalizing addresses with
  | nil => trivial
  | cons host rest ih =>
    obtain ⟨here, later⟩ := List.forall_mem_cons.mp members
    apply Prog.Only.bind (provisionHost_within polls steps config here)
    intro address
    exact ih _ later

theorem destroyHosts_within (polls attempts : Nat) {hosts : List HostConfig}
    (members : ∀ host ∈ hosts, host.vmName ∈ names) :
    (destroyHosts (fun vm => destroy polls vm attempts) hosts).Only (HostOp.Within names) := by
  induction hosts with
  | nil => trivial
  | cons host rest ih =>
    obtain ⟨here, later⟩ := List.forall_mem_cons.mp members
    apply Prog.Only.bind (destroy_within polls here attempts)
    intro _
    exact ih later

-- Every destroyed host stays destroyed while the others follow.
theorem upholds_destroyHosts (polls attempts : Nat) {hosts : List HostConfig} {world : Hypervisor}
    (plain : world.Plain) (named : ∀ host ∈ hosts, host.vmName ≠ "") :
    Upholds hypervisorStep (destroyHosts (fun vm => destroy polls vm attempts) hosts) world
      (fun after => ∀ machine ∈ after.machines, machine ∈ world.machines)
      (fun _ after => ∀ host ∈ hosts, ¬ after.Registered host.vmName) := by
  induction hosts generalizing world with
  | nil => exact upholds_done (fun _ member => member) (by simp)
  | cons host rest ih =>
    obtain ⟨here, later⟩ := List.forall_mem_cons.mp named
    apply upholds_bind
    · apply (upholds_destroy polls host.vmName attempts world).mono
      · exact fun after reduced => reduced.1
      · exact fun _ after reduced gone => And.intro reduced gone
    · rintro _ middle - ⟨reduced, hidden⟩
      have gone := mt (shows_iff (reduced.plain plain) here).mpr hidden
      apply (ih (reduced.plain plain) later).mono
      · exact fun after shrunk machine member => reduced.1 machine (shrunk machine member)
      · intro _ after shrunk others other member
        rcases List.mem_cons.mp member with rfl | member
        · intro back
          obtain ⟨machine, member, same⟩ := List.mem_map.mp back
          exact gone (List.mem_map.mpr ⟨machine, shrunk machine member, same⟩)
        · exact others other member

/-- Deployments and teardowns stop and delete cluster machines only, and a machine that was
destroyed, like every machine of a cluster that was torn down, is not registered. -/
theorem cluster_machines_only {platform : Config.Platform} {path : String} {base : Config.Source}
    {overlay : Option Config.Source} {config : ClusterConfig}
    (loaded : Config.loadClusterConfig platform path base overlay = .ok config) (polls : Nat)
    (steps : GuestSteps G) {world : Hypervisor} (plain : world.Plain) :
    config.virtualbox.templateVm ∉ config.vmNames ∧
    Always deployStep (provisionCluster (provisionHost polls steps config) config) world
      (fun _ after => Spared config.vmNames world after) ∧
    Always hypervisorStep (teardownCluster (fun vm => destroy polls vm destroyAttempts) config) world
      (fun outcome after => Spared config.vmNames world after ∧
        (outcome = .returned () → ∀ vm ∈ config.vmNames, ¬ after.Registered vm)) ∧
    ∀ vm ∈ config.vmNames, ∀ attempts, Always hypervisorStep (destroy polls vm attempts) world
      (fun outcome after => after.deletes vm ≤ world.deletes vm + attempts ∧
        (outcome = .returned () → ¬ after.Registered vm)) := by
  have sound := Config.sound_of_load loaded
  have members : ∀ host ∈ config.allHosts, host.vmName ∈ config.vmNames :=
    fun host member => List.mem_map_of_mem member
  refine ⟨sound.template, ?_, ?_, ?_⟩
  · have within := provisionHosts_within polls steps config [] members
    apply always_only (Spared config.vmNames) world within (Spared.refl _)
    · exact fun _ _ _ => Spared.trans
    · intro x op before here
      cases op with
      | inl op => exact within_spares here x.1 before
      | inr op => exact Spared.refl _ before
  · apply (always_spared (destroyHosts_within polls destroyAttempts members) world).and
    refine Always.mono (upholds_destroyHosts polls destroyAttempts plain sound.named) ?_
    rintro outcome after ⟨-, gone⟩ returned vm member
    obtain ⟨host, present, rfl⟩ := List.mem_map.mp member
    exact gone () returned host present
  · intro vm member attempts
    obtain ⟨host, present, rfl⟩ := List.mem_map.mp member
    refine Always.mono (upholds_destroy polls host.vmName attempts world) ?_
    rintro outcome after ⟨reduced, hidden⟩
    refine ⟨reduced.2, fun returned => ?_⟩
    exact mt (shows_iff (reduced.plain plain) (sound.named host present)).mpr (hidden () returned)

def exampleMachines : Hypervisor where
  machines := [⟨"apubuntuD".toList, "5c1f".toList⟩, ⟨"box\" \x7bold\x7d".toList, "77aa".toList⟩,
    ⟨"apjump".toList, "90e2".toList⟩]
  issued := []

abbrev noGuestOps : Signature := ⟨Empty, Empty.elim⟩

theorem example_torn_down : Always hypervisorStep
    (teardownCluster (fun vm => destroy 24 vm destroyAttempts)
      (Config.exampleCluster "apjump" Config.exampleNodes)) exampleMachines
    (fun outcome after =>
      Spared ["apjump", "apnode1", "apnode2"] exampleMachines after ∧
        (outcome = .returned () → ∀ vm ∈ ["apjump", "apnode1", "apnode2"], ¬ after.Registered vm)) :=
  (cluster_machines_only (G := noGuestOps) Config.example_loads 24
    ⟨fun _ _ _ => pure (), fun _ _ => pure (), fun _ _ => pure (), fun _ => pure "",
      fun _ => pure ()⟩
    (by simp [Hypervisor.Plain, Listed.Plain, exampleMachines, isLineBreak])).2.2.1

end VmDeploy.Provision
