import VmDeploy.Effects.Program
import VmDeploy.Exceptions
import VmDeploy.Python.Text

/-! `virtualbox.py`: the typed wrapper around the `VBoxManage` command line tool.

Clock readings are natural numbers of milliseconds. A polling loop is given a
bound on its iterations; a run that would poll longer never comes back, so a
result about every bound is a result about the loop. -/

set_option autoImplicit false

open Effects Python

namespace VmDeploy.VirtualBox

inductive VMState where
  | running
  | poweredOff
  | saved
  | aborted
  | unknown
  | absent
  deriving DecidableEq, Repr

def VMState.value : VMState → String
  | .running => "running"
  | .poweredOff => "poweroff"
  | .saved => "saved"
  | .aborted => "aborted"
  | .unknown => "unknown"
  | .absent => "absent"

def VMState.all : List VMState :=
  [.running, .poweredOff, .saved, .aborted, .unknown, .absent]

def VMState.parse (raw : Text) : VMState :=
  let normalised := lower (stripBy (· == '"') (strip raw))
  (VMState.all.find? (fun state => state.value.toList == normalised)).getD .unknown

/-- The argument vectors the wrapper passes to `VBoxManage`. -/
inductive Command where
  | version
  | listSystemproperties
  | listVms
  | showvminfo (vm : String)
  | controlvm (vm action : String)
  | startvm (vm : String)
  | exportVm (vm destination : String)
  | snapshotList (vm : String)
  | snapshotTake (vm snapshot : String)
  | snapshotRestore (vm snapshot : String)
  | snapshotDelete (vm snapshot : String)
  | unregistervm (vm : String)
  | importVm (source vm : String)
  | modifyvmSizing (vm : String) (memoryMb cpus : Nat)
  | modifyvmBridge (vm interface : String)
  | storageattach (vm controller : String) (port device : Nat) (medium : String)
  | guestpropertyEnumerate (vm : String)
  deriving DecidableEq, Repr

def Command.args : Command → List String
  | .version => ["--version"]
  | .listSystemproperties => ["list", "systemproperties"]
  | .listVms => ["list", "vms"]
  | .showvminfo vm => ["showvminfo", vm, "--machinereadable"]
  | .controlvm vm action => ["controlvm", vm, action]
  | .startvm vm => ["startvm", vm, "--type", "headless"]
  | .exportVm vm destination => ["export", vm, "--output", destination, "--ovf20"]
  | .snapshotList vm => ["snapshot", vm, "list", "--machinereadable"]
  | .snapshotTake vm snapshot => ["snapshot", vm, "take", snapshot]
  | .snapshotRestore vm snapshot => ["snapshot", vm, "restore", snapshot]
  | .snapshotDelete vm snapshot => ["snapshot", vm, "delete", snapshot]
  | .unregistervm vm => ["unregistervm", vm, "--delete"]
  | .importVm source vm => ["import", source, "--vsys", "0", "--vmname", vm]
  | .modifyvmSizing vm memoryMb cpus =>
      ["modifyvm", vm, "--memory", toString memoryMb, "--cpus", toString cpus]
  | .modifyvmBridge vm interface =>
      ["modifyvm", vm, "--nic1", "bridged", "--bridgeadapter1", interface]
  | .storageattach vm controller port device medium =>
      ["storageattach", vm, "--storagectl", controller, "--port", toString port,
        "--device", toString device, "--type", "dvddrive", "--medium", medium]
  | .guestpropertyEnumerate vm => ["guestproperty", "enumerate", vm]

structure ProcessResult where
  exitStatus : Int
  stdout : String
  stderr : String
  deriving DecidableEq, Repr

def ProcessResult.ok (result : ProcessResult) : Bool :=
  result.exitStatus == 0

/-- How `subprocess.run` can fail to deliver a result. -/
inductive RunFault where
  | timeoutExpired
  | osError (text : String)
  deriving DecidableEq, Repr

/-- How `socket.getaddrinfo` can fail: the name is unknown, or cannot be encoded. -/
inductive ResolveFault where
  | gaierror
  | unicodeError (text : String)
  deriving DecidableEq, Repr

def succeeded : Except RunFault ProcessResult → Bool
  | .ok result => result.ok
  | .error _ => false

/-- What the package asks of the automation host. `routeSource` is the local address of a
datagram socket connected to a public one, and `intMaxStrDigits` the number of digits that the
interpreter converts, if it is limited. -/
inductive HostOp where
  | invoke (command : Command) (timeout : Nat)
  | monotonic
  | sleep (milliseconds : Nat)
  | mkdirParents (path : String)
  | pathExists (path : String)
  | unlink (path : String)
  | statSize (path : String)
  | isFile (path : String)
  | readBytes (path : String)
  | unlinkMissingOk (path : String)
  | routeSource
  | getaddrinfo (hostname : String)
  | uuidHex
  | intMaxStrDigits
  | writeIso (destination : String) (userData metaData : Text)

abbrev HostOp.Reply : HostOp → Type
  | .invoke _ _ => Except RunFault ProcessResult
  | .monotonic => Nat
  | .sleep _ => Unit
  | .mkdirParents _ => Except String Unit
  | .pathExists _ => Except String Bool
  | .unlink _ => Except String Unit
  | .statSize _ => Except String Nat
  | .isFile _ => Except String Bool
  | .readBytes _ => Except String (List UInt8)
  | .unlinkMissingOk _ => Except String Unit
  | .routeSource => Except String Text
  | .getaddrinfo _ => Except ResolveFault (List Text)
  | .uuidHex => Text
  | .intMaxStrDigits => Option Nat
  | .writeIso _ _ _ => Except String Unit

def HostOp.idle (reply : Except RunFault ProcessResult) : (op : HostOp) → op.Reply
  | .invoke _ _ => reply
  | .monotonic => 0
  | .sleep _ => ()
  | .mkdirParents _ => .ok ()
  | .pathExists _ => .ok false
  | .unlink _ => .ok ()
  | .statSize _ => .ok 0
  | .isFile _ => .ok false
  | .readBytes _ => .ok []
  | .unlinkMissingOk _ => .ok ()
  | .routeSource => .ok []
  | .getaddrinfo _ => .error .gaierror
  | .uuidHex => []
  | .intMaxStrDigits => some 4300
  | .writeIso _ _ _ => .ok ()

abbrev hostSignature : Signature :=
  ⟨HostOp, HostOp.Reply⟩

abbrev VBoxProg (A : Type) :=
  Prog hostSignature PyError A

def ask (op : HostOp) : VBoxProg op.Reply :=
  Prog.perform (I := hostSignature) op

/-- An `OSError` of the standard library is not translated by the wrapper. -/
def orOsError {A : Type} : Except String A → VBoxProg A
  | .ok value => .done value
  | .error message => .raise (.osError message)

def pollIntervalMs : Nat := 5000

def applianceTimeoutSeconds : Nat := 3600

/-- What `run` makes of the way a process ended. A timeout raises whatever `check` says. -/
def completed (command : Command) (check : Bool) (timeout : Nat) :
    Except RunFault ProcessResult → VBoxProg ProcessResult
  | .error .timeoutExpired =>
      .raise (.virtualBoxError command.args (-1) s!"timed out after {timeout}s")
  | .error (.osError text) => .raise (.virtualBoxError command.args (-1) text)
  | .ok result =>
      if check && !result.ok then
        .raise (.virtualBoxError command.args result.exitStatus result.stderr)
      else
        .done result

/-- `VBoxManage.run` -/
def run (command : Command) (check : Bool) (timeout : Nat) : VBoxProg ProcessResult := do
  completed command check timeout (← ask (.invoke command timeout))

/-- What must follow the name in `^"(.+)"\s+\{`. -/
def closesName : Text → Bool
  | '"' :: c :: rest => isSpace c && (rest.dropWhile isSpace).head? == some '{'
  | _ => false

/-- The longest non-empty name the pattern can match, after its opening quote. -/
def greedyName : Text → Option Text
  | [] => none
  | c :: rest =>
      match greedyName rest with
      | some name => some (c :: name)
      | none => if closesName rest then some [c] else none

def vmNameOfLine : Text → Option Text
  | '"' :: rest => greedyName rest
  | _ => none

def listVms : VBoxProg (List Text) := do
  let result ← run .listVms true 120
  pure ((splitLines result.stdout.toList).filterMap vmNameOfLine)

/-- `VBoxManage.exists` -/
def isRegistered (vm : String) : VBoxProg Bool := do
  let names ← listVms
  pure (names.contains vm.toList)

/-- The state named by the first `VMState=` line of `showvminfo`. -/
def stateOfInfo (lines : List Text) : VMState :=
  ((lines.filterMap (afterPrefix? "VMState=".toList)).head?.map VMState.parse).getD .unknown

def state (vm : String) : VBoxProg VMState := do
  let result ← run (.showvminfo vm) false 120
  pure (if result.ok then stateOfInfo (splitLines result.stdout.toList) else .absent)

/-- The polling loop of `power_off`: whether the machine stopped before the deadline. -/
def pollStopped (vm : String) (deadline : Nat) : Nat → VBoxProg Bool
  | 0 => .halt
  | polls + 1 => do
      let now ← ask .monotonic
      if now < deadline then
        if (← state vm) ≠ .running then
          pure true
        else do
          ask (.sleep pollIntervalMs)
          pollStopped vm deadline polls
      else
        pure false

def powerOff (polls : Nat) (vm : String) (waitSeconds : Nat) : VBoxProg Unit := do
  if (← state vm) ≠ .running then
    pure ()
  else do
    let _ ← run (.controlvm vm "acpipowerbutton") false 120
    let started ← ask .monotonic
    if ← pollStopped vm (started + 1000 * waitSeconds) polls then
      pure ()
    else do
      let _ ← run (.controlvm vm "poweroff") false 120
      ask (.sleep pollIntervalMs)
      if (← state vm) = .running then
        .raise (.provisioningTimeoutError s!"{vm} could not be powered off")
      else
        pure ()

def startHeadless (vm : String) : VBoxProg Unit := do
  if (← state vm) = .running then
    pure ()
  else do
    let _ ← run (.startvm vm) true 300
    pure ()

/-- The parent directory of a path, as `Path.parent` gives it for `/`-separated paths. -/
def parentPath (path : String) : String :=
  String.ofList ((path.toList.reverse.dropWhile (· ≠ '/')).drop 1).reverse

def unlinkExisting (destination : String) : VBoxProg Unit := do
  if ← orOsError (← ask (.pathExists destination)) then
    orOsError (← ask (.unlink destination))

def exportAppliance (vm destination : String) : VBoxProg Unit := do
  if (← state vm) = .running then
    .raise (.virtualBoxError ["export", vm] (-1) "machine must be powered off before export")
  else do
    orOsError (← ask (.mkdirParents (parentPath destination)))
    unlinkExisting destination
    let _ ← run (.exportVm vm destination) true applianceTimeoutSeconds
    let _ ← orOsError (← ask (.statSize destination))
    pure ()

def hasSnapshot (vm snapshot : String) : VBoxProg Bool := do
  let result ← run (.snapshotList vm) false 120
  pure (result.ok && containsText s!"=\"{snapshot}\"".toList result.stdout.toList)

/-- `delete_snapshot` tolerates a non-zero exit, never a timeout. -/
def deleteSnapshot (vm snapshot : String) : VBoxProg Unit := do
  let _ ← run (.snapshotDelete vm snapshot) false 300
  pure ()

/-- `take_snapshot` first deletes a snapshot of the same name. -/
def takeSnapshot (vm snapshot : String) : VBoxProg Unit := do
  if ← hasSnapshot vm snapshot then
    deleteSnapshot vm snapshot
  let _ ← run (.snapshotTake vm snapshot) true 300
  pure ()

def restoreSnapshot (vm snapshot : String) : VBoxProg Unit := do
  if (← state vm) = .running then
    .raise (.virtualBoxError ["snapshot", vm, "restore"] (-1)
      "machine must be powered off to restore")
  else do
    let _ ← run (.snapshotRestore vm snapshot) true 300
    pure ()

def Command.touchesSnapshots : Command → Bool
  | .snapshotTake _ _ | .snapshotRestore _ _ | .snapshotDelete _ _ => true
  | _ => false

def HostOp.Routine : HostOp → Prop
  | .invoke command _ => command.touchesSnapshots = false
  | _ => True

/-- Operations that leave every snapshot and the stopped machine's disk as they are. -/
def HostOp.Quiet : HostOp → Prop
  | .invoke (.startvm _) _ => False
  | op => op.Routine

theorem HostOp.Quiet.routine {op : HostOp} (quiet : op.Quiet) : op.Routine := by
  cases op with
  | invoke command timeout =>
    cases command with
    | startvm vm => exact quiet.elim
    | _ => exact quiet
  | _ => trivial

theorem run_only (P : HostOp → Prop) {command : Command} {timeout : Nat}
    (here : P (.invoke command timeout)) (check : Bool) :
    (run command check timeout).Only P := by
  refine Prog.Only.bind ⟨here, fun _ => trivial⟩ ?_
  intro reply
  unfold completed
  split
  · trivial
  · trivial
  · split <;> trivial

theorem listVms_quiet : listVms.Only HostOp.Quiet :=
  Prog.Only.bind (run_only HostOp.Quiet (by exact rfl) _) (fun _ => trivial)

theorem isRegistered_quiet (vm : String) : (isRegistered vm).Only HostOp.Quiet :=
  Prog.Only.bind listVms_quiet (fun _ => trivial)

theorem state_quiet (vm : String) : (state vm).Only HostOp.Quiet :=
  Prog.Only.bind (run_only HostOp.Quiet (by exact rfl) _) (fun _ => trivial)

theorem hasSnapshot_quiet (vm snapshot : String) : (hasSnapshot vm snapshot).Only HostOp.Quiet :=
  Prog.Only.bind (run_only HostOp.Quiet (by exact rfl) _) (fun _ => trivial)

def HostOp.Stops (vm : String) : HostOp → Prop
  | .invoke (.showvminfo name) _ | .invoke (.controlvm name _) _ => name = vm
  | .monotonic | .sleep _ => True
  | _ => False

theorem HostOp.Stops.quiet {vm : String} {op : HostOp} (stops : op.Stops vm) : op.Quiet := by
  cases op with
  | invoke command timeout =>
    cases command with
    | showvminfo name => rfl
    | controlvm name action => rfl
    | _ => exact stops.elim
  | _ => trivial

theorem state_only {P : HostOp → Prop} {vm : String}
    (asks : ∀ timeout, P (.invoke (.showvminfo vm) timeout)) : (state vm).Only P :=
  Prog.Only.bind (run_only P (asks _) _) (fun _ => trivial)

theorem pollStopped_only (vm : String) (deadline polls : Nat) :
    (pollStopped vm deadline polls).Only (HostOp.Stops vm) := by
  induction polls with
  | zero => trivial
  | succ polls ih =>
    apply Prog.Only.bind
    · exact ⟨trivial, fun _ => trivial⟩
    intro now
    split
    · apply Prog.Only.bind (state_only fun _ => rfl)
      intro seen
      split
      · trivial
      · exact Prog.Only.bind ⟨trivial, fun _ => trivial⟩ (fun _ => ih)
    · trivial

theorem powerOff_only (polls : Nat) (vm : String) (waitSeconds : Nat) :
    (powerOff polls vm waitSeconds).Only (HostOp.Stops vm) := by
  apply Prog.Only.bind
  · exact state_only fun _ => rfl
  intro seen
  split
  · trivial
  apply Prog.Only.bind
  · exact run_only (HostOp.Stops vm) (by exact rfl) _
  intro _
  apply Prog.Only.bind
  · exact ⟨trivial, fun _ => trivial⟩
  intro started
  apply Prog.Only.bind
  · exact pollStopped_only _ _ _
  intro stopped
  split
  · trivial
  apply Prog.Only.bind
  · exact run_only (HostOp.Stops vm) (by exact rfl) _
  intro _
  apply Prog.Only.bind
  · exact ⟨trivial, fun _ => trivial⟩
  intro _
  apply Prog.Only.bind
  · exact state_only fun _ => rfl
  intro seen
  split <;> trivial

theorem powerOff_quiet (polls : Nat) (vm : String) (waitSeconds : Nat) :
    (powerOff polls vm waitSeconds).Only HostOp.Quiet :=
  (powerOff_only polls vm waitSeconds).mono fun _ => HostOp.Stops.quiet

theorem startHeadless_routine (vm : String) : (startHeadless vm).Only HostOp.Routine := by
  refine Prog.Only.bind ((state_quiet vm).mono fun _ => HostOp.Quiet.routine) ?_
  intro seen
  split
  · trivial
  · exact Prog.Only.bind (run_only HostOp.Routine (by exact rfl) _) (fun _ => trivial)

theorem orOsError_only {A : Type} (reply : Except String A) (P : HostOp → Prop) :
    (orOsError reply).Only P := by
  cases reply <;> trivial

theorem unlinkExisting_routine (destination : String) :
    (unlinkExisting destination).Only HostOp.Routine := by
  refine Prog.Only.bind ⟨trivial, fun _ => trivial⟩ (fun _ => ?_)
  refine Prog.Only.bind (orOsError_only _ _) ?_
  intro present
  split
  · exact Prog.Only.bind ⟨trivial, fun _ => trivial⟩ (fun _ => orOsError_only _ _)
  · trivial

theorem exportAppliance_routine (vm destination : String) :
    (exportAppliance vm destination).Only HostOp.Routine := by
  refine Prog.Only.bind ((state_quiet vm).mono fun _ => HostOp.Quiet.routine) ?_
  intro seen
  split
  · trivial
  refine Prog.Only.bind ⟨trivial, fun _ => trivial⟩ (fun _ => ?_)
  refine Prog.Only.bind (orOsError_only _ _) (fun _ => ?_)
  refine Prog.Only.bind (unlinkExisting_routine destination) (fun _ => ?_)
  refine Prog.Only.bind (run_only HostOp.Routine (by exact rfl) _) (fun _ => ?_)
  refine Prog.Only.bind ⟨trivial, fun _ => trivial⟩ (fun _ => ?_)
  exact Prog.Only.bind (orOsError_only _ _) (fun _ => trivial)

end VmDeploy.VirtualBox
