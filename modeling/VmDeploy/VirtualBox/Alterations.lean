import VmDeploy.VirtualBox.Registry

/-! Whether a run stopped, deleted or imported a machine, and which commands its errors name. -/

set_option autoImplicit false

open Effects Python

namespace VmDeploy.VirtualBox

def Command.alters : Command → Bool
  | .controlvm _ _ | .unregistervm _ | .importVm _ _ => true
  | _ => false

def Hypervisor.alterations (world : Hypervisor) : List Issued :=
  world.issued.filter fun entry => entry.took && entry.command.alters

def Untouched (world after : Hypervisor) : Prop :=
  after.machines = world.machines ∧ after.alterations = world.alterations

theorem Untouched.trans {first second third : Hypervisor} (early : Untouched first second)
    (late : Untouched second third) : Untouched first third :=
  ⟨late.1.trans early.1, late.2.trans early.2⟩

theorem Untouched.shows {world after : Hypervisor} (same : Untouched world after) (vm : String) :
    after.Shows vm ↔ world.Shows vm := by
  rw [Hypervisor.Shows, Hypervisor.Shows, same.1]

theorem perform_untouched {x : HypervisorChoice} {command : Command} (world : Hypervisor)
    (idle : x.took = false ∨ command.alters = false) :
    Untouched world (world.perform x command) := by
  constructor
  · rcases idle with missed | harmless
    · simp [Hypervisor.perform, missed]
    · have same : command.registers x.uuid world.machines = world.machines := by
        cases command with
        | unregistervm vm => cases harmless
        | importVm source vm => cases harmless
        | _ => rfl
      simp [Hypervisor.perform, same]
  · have dropped : (x.took && command.alters) = false := by
      rcases idle with missed | harmless
      · rw [missed, Bool.false_and]
      · rw [harmless, Bool.and_false]
    simp [Hypervisor.perform, Hypervisor.alterations, dropped]

/-- Operations that alter no machine, whatever the host chooses. -/
def HostOp.Still : HostOp → Prop
  | .invoke command _ => command.alters = false
  | _ => True

theorem still_untouched {op : HostOp} (still : op.Still) (x : HypervisorChoice)
    (world : Hypervisor) : Untouched world (hypervisorStep x op world).2 := by
  cases op with
  | invoke command timeout => exact perform_untouched world (.inr still)
  | _ => exact ⟨rfl, rfl⟩

theorem step_alterations (x : HypervisorChoice) (op : HostOp) (world : Hypervisor) :
    world.alterations.length ≤ (hypervisorStep x op world).2.alterations.length := by
  cases op with
  | invoke command timeout =>
    simp [hypervisorStep, Hypervisor.perform, Hypervisor.alterations, List.filter_append]
  | _ => exact Nat.le_refl _

theorem upholds_still {A : Type} {p : VBoxProg A} (still : p.Only HostOp.Still)
    (world : Hypervisor) :
    Upholds hypervisorStep p world (Untouched world) (fun _ _ => True) := by
  apply upholds_only still ⟨rfl, rfl⟩
  exact fun x op before here held => held.trans (still_untouched here x before)

theorem isRegistered_still (vm : String) : (isRegistered vm).Only HostOp.Still := by
  apply Prog.Only.bind
  · apply Prog.Only.bind (run_only HostOp.Still (by exact rfl) _)
    intro _
    trivial
  · intro _
    trivial

theorem upholds_destroy_hidden (polls : Nat) {vm : String} (attempts : Nat) {world : Hypervisor}
    (hidden : ¬ world.Shows vm) :
    Upholds hypervisorStep (destroy polls vm attempts) world (Untouched world)
      (fun _ _ => True) := by
  have found : Upholds hypervisorStep (isRegistered vm) world (Untouched world)
      (fun found after => found = true ↔ after.Shows vm) := by
    intro script
    exact ⟨(upholds_still (isRegistered_still vm) world script).1,
      (upholds_isRegistered vm world script).2⟩
  apply upholds_bind found
  intro found after untouched same
  cases found with
  | false => exact upholds_done untouched trivial
  | true => exact absurd ((untouched.shows vm).mp (same.mp rfl)) hidden

def Elsewhere : PyError → Prop
  | .virtualBoxError args _ _ => args.head? ≠ some "import"
  | .provisioningTimeoutError _ => True
  | _ => False

theorem run_elsewhere {command : Command} (other : command.args.head? ≠ some "import")
    (check : Bool) (timeout : Nat) : (run command check timeout).Raises Elsewhere := by
  apply Prog.Raises.bind
  · exact fun _ => trivial
  intro reply
  unfold completed
  split
  · exact other
  · exact other
  · split
    · exact other
    · trivial

theorem state_elsewhere (vm : String) : (state vm).Raises Elsewhere :=
  Prog.Raises.bind (run_elsewhere (by simp [Command.args]) _ _) fun _ => trivial

theorem isRegistered_elsewhere (vm : String) : (isRegistered vm).Raises Elsewhere := by
  apply Prog.Raises.bind
  · apply Prog.Raises.bind (run_elsewhere (by simp [Command.args]) _ _)
    intro _
    trivial
  · intro _
    trivial

theorem pollStopped_elsewhere (vm : String) (deadline polls : Nat) :
    (pollStopped vm deadline polls).Raises Elsewhere := by
  induction polls with
  | zero => trivial
  | succ polls ih =>
    apply Prog.Raises.bind
    · exact fun _ => trivial
    intro now
    split
    · apply Prog.Raises.bind (state_elsewhere vm)
      intro seen
      split
      · trivial
      · apply Prog.Raises.bind
        · exact fun _ => trivial
        intro _
        exact ih
    · trivial

theorem powerOff_elsewhere (polls : Nat) (vm : String) (waitSeconds : Nat) :
    (powerOff polls vm waitSeconds).Raises Elsewhere := by
  apply Prog.Raises.bind (state_elsewhere vm)
  intro seen
  split
  · trivial
  apply Prog.Raises.bind (run_elsewhere (by simp [Command.args]) _ _)
  intro _
  apply Prog.Raises.bind
  · exact fun _ => trivial
  intro started
  apply Prog.Raises.bind (pollStopped_elsewhere _ _ _)
  intro stopped
  split
  · trivial
  apply Prog.Raises.bind (run_elsewhere (by simp [Command.args]) _ _)
  intro _
  apply Prog.Raises.bind
  · exact fun _ => trivial
  intro _
  apply Prog.Raises.bind (state_elsewhere vm)
  intro seen
  split <;> trivial

theorem deleteUntilGone_elsewhere (vm : String) (attempts left : Nat) (lastError : String) :
    (deleteUntilGone vm attempts left lastError).Raises Elsewhere := by
  induction left generalizing lastError with
  | zero => simp [deleteUntilGone, Prog.Raises, Elsewhere]
  | succ left ih =>
    apply Prog.Raises.bind (run_elsewhere (by simp [Command.args]) _ _)
    intro result
    apply Prog.Raises.bind (isRegistered_elsewhere vm)
    intro found
    split
    · apply Prog.Raises.bind
      · exact fun _ => trivial
      intro _
      exact ih _
    · trivial

theorem destroy_elsewhere (polls : Nat) (vm : String) (attempts : Nat) :
    (destroy polls vm attempts).Raises Elsewhere := by
  apply Prog.Raises.bind (isRegistered_elsewhere vm)
  intro found
  split
  · apply Prog.Raises.bind (powerOff_elsewhere polls vm 120)
    intro _
    exact deleteUntilGone_elsewhere vm attempts attempts ""
  · trivial

end VmDeploy.VirtualBox
