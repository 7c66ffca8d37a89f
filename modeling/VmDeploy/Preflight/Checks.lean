import VmDeploy.Effects.Answered
import VmDeploy.Provision.Teardown
import VmDeploy.Python.Paths

/-! `preflight.py`: the six checks made before a deployment.

Every request is labelled with its check and its turn there, so that one answer to every
labelled request is a choice of everything a run may meet. How a number is shown with one
decimal is a parameter. -/

set_option autoImplicit false

open Effects Python

namespace VmDeploy.Preflight

open VirtualBox Provision

inductive CheckStatus where
  | pass
  | warn
  | fail
  deriving DecidableEq, Repr

structure CheckResult where
  name : String
  status : CheckStatus
  detail : String
  deriving DecidableEq, Repr

inductive Check where
  | vboxmanage
  | sshKey
  | keyDirectory
  | hostRam
  | hostDisk
  | templateOrOva
  deriving DecidableEq, Repr

def Check.name : Check → String
  | .vboxmanage => "VBoxManage"
  | .sshKey => "SSH key"
  | .keyDirectory => "Key/manifest dir"
  | .hostRam => "Host RAM"
  | .hostDisk => "Host disk"
  | .templateOrOva => "Template/OVA"

def Check.all : List Check :=
  [.vboxmanage, .sshKey, .keyDirectory, .hostRam, .hostDisk, .templateOrOva]

inductive SysconfFault where
  | osError (message : String)
  | valueError (message : String)

/-- What the checks ask beyond the requests of the wrapper. -/
inductive MeasureOp where
  | writeText (path text : String)
  | diskUsage (path : String)
  | platformSystem
  | hasWindll
  | globalMemoryStatusEx
  | hasSysconf
  | sysconf (name : String)

-- The reply of `GlobalMemoryStatusEx` is `ullAvailPhys`, where the call succeeds.
abbrev MeasureOp.Reply : MeasureOp → Type
  | .writeText _ _ => Except String Unit
  | .diskUsage _ => Except String Nat
  | .platformSystem => String
  | .hasWindll => Bool
  | .globalMemoryStatusEx => Option Nat
  | .hasSysconf => Bool
  | .sysconf _ => Except SysconfFault Int

abbrev measureSignature : Signature :=
  ⟨MeasureOp, MeasureOp.Reply⟩

structure Site where
  check : Check
  turn : Nat
  deriving DecidableEq, Repr

abbrev checkSignature : Signature :=
  ⟨Site × (hostSignature.sum measureSignature).Op, fun op => (hostSignature.sum measureSignature).Reply op.2⟩

abbrev CheckProg (A : Type) :=
  Prog checkSignature PyError A

def asks {A : Type} (check : Check) (turn : Nat) (p : VBoxProg A) : CheckProg A :=
  p.refine fun op => Prog.perform (I := checkSignature) (⟨check, turn⟩, .inl op)

def measures (check : Check) (turn : Nat) (op : MeasureOp) : CheckProg op.Reply :=
  Prog.perform (I := checkSignature) (⟨check, turn⟩, .inr op)

def isFile (path : String) : VBoxProg Bool := do
  orOsError (← ask (.isFile path))

def stSize (path : String) : VBoxProg Nat := do
  orOsError (← ask (.statSize path))

def pathExists (path : String) : VBoxProg Bool := do
  orOsError (← ask (.pathExists path))

/-- `mkdir(parents=True, exist_ok=True)`, which refuses a path with a NUL before the file system
is asked. A file below a directory that was made has none in its path either. -/
def mkdirParents (path : String) : VBoxProg Unit := do
  if '\x00' ∈ path.toList then
    .raise (.valueError "mkdir: embedded null character in path")
  else
    orOsError (← ask (.mkdirParents path))

def unlink (path : String) : VBoxProg Unit := do
  orOsError (← ask (.unlink path))

def raising {A : Type} : Except String A → CheckProg A
  | .ok value => .done value
  | .error message => .raise (.osError message)

def writeText (check : Check) (turn : Nat) (path text : String) : CheckProg Unit := do
  raising (← measures check turn (.writeText path text))

/-- `shutil.disk_usage(path).free` -/
def diskFree (check : Check) (turn : Nat) (path : String) : CheckProg Nat := do
  raising (← measures check turn (.diskUsage path))

/-- The float nearest to an integer: 53 significant bits, and a tie goes to the even one. -/
def roundToFloat (amount : Nat) : Nat :=
  let unit := 1 <<< (amount.log2 - 52)
  let below := amount / unit
  let rest := amount % unit
  if unit < 2 * rest ∨ 2 * rest = unit ∧ below % 2 = 1 then (below + 1) * unit else below * unit

/-- `int(amount / _MB)` -/
def megabytes (amount : Int) : Int :=
  amount.sign * (roundToFloat amount.natAbs / (1024 * 1024) : Nat)

example : megabytes 8589934591 = 8191 ∧ megabytes 18446744073709551615 = 17592186044416 ∧
    megabytes (-4096) = 0 := by
  decide

def windowsAvailableRamMb : CheckProg (Option Int) := do
  if ← measures .hostRam 1 .hasWindll then do
    let status ← measures .hostRam 2 .globalMemoryStatusEx
    pure (status.map fun ullAvailPhys => megabytes ullAvailPhys)
  else
    pure none

def sysconfRaising : Except SysconfFault Int → CheckProg Int
  | .ok value => .done value
  | .error (.osError message) => .raise (.osError message)
  | .error (.valueError message) => .raise (.valueError message)

def sysconf (turn : Nat) (name : String) : CheckProg Int := do
  sysconfRaising (← measures .hostRam turn (.sysconf name))

/-- `except (ValueError, OSError)` -/
def undetermined : PyError → Option (CheckProg (Option Int))
  | .valueError _ | .osError _ => some (pure none)
  | _ => none

def posixAvailableRamMb : CheckProg (Option Int) := do
  if ← measures .hostRam 3 .hasSysconf then
    Prog.catching (do
      let pages ← sysconf 4 "SC_AVPHYS_PAGES"
      let size ← sysconf 5 "SC_PAGE_SIZE"
      pure (some (megabytes (pages * size)))) undetermined
  else
    pure none

def hostAvailableRamMb : CheckProg (Option Int) := do
  if (← measures .hostRam 0 .platformSystem) = "Windows" then windowsAvailableRamMb
  else posixAvailableRamMb

section Checks

variable (config : ClusterConfig)

def failed (check : Check) (detail : String) : CheckResult :=
  ⟨check.name, .fail, detail⟩

/-- `except (OSError, ValueError)` -/
def notRunnable : PyError → Option (CheckProg CheckResult)
  | .osError exc | .valueError exc => some (pure (failed .vboxmanage s!"found but not runnable: {exc}"))
  | _ => none

def checkVboxmanage : CheckProg CheckResult := do
  let path := config.virtualbox.vboxmanage
  if ← asks .vboxmanage 0 (isFile path) then
    Prog.catching (do
      asks .vboxmanage 1 (bindVBoxManage path)
      let result ← asks .vboxmanage 2 (run .version true 120)
      let version := String.ofList (strip result.stdout.toList)
      pure ⟨Check.name .vboxmanage, .pass, s!"VirtualBox {version} at {path}"⟩) notRunnable
  else
    pure (failed .vboxmanage s!"not found at {path}; set [virtualbox].vboxmanage in the configuration")

def checkSshKey : CheckProg CheckResult := do
  let path := config.ssh.keyPath
  if ← asks .sshKey 0 (isFile path) then
    pure ⟨Check.name .sshKey, .pass, s!"present at {path}"⟩
  else
    pure (failed .sshKey s!"private key not found at {path}; set [ssh].key_path")

def notWritable (target : String) : PyError → Option (CheckProg CheckResult)
  | .osError exc => some (pure (failed .keyDirectory s!"{target} is not writable: {exc}"))
  | _ => none

def checkKeyDirectoryWritable : CheckProg CheckResult :=
  let target := String.ofList (pathParent config.inventory.manifestFile.toList)
  let probe := String.ofList (joinPath target.toList ".vmdeploy-write-test".toList)
  Prog.catching (do
    asks .keyDirectory 0 (mkdirParents target)
    writeText .keyDirectory 1 probe "ok"
    asks .keyDirectory 2 (unlink probe)
    pure ⟨Check.name .keyDirectory, .pass, s!"{target} is writable"⟩) (notWritable target)

def hostRamHeadroomMb : Nat := 1024

def checkHostRam : CheckProg CheckResult := do
  let guests := config.allHosts.length
  let memory := config.virtualbox.memoryMb
  let required := guests * memory + hostRamHeadroomMb
  match ← hostAvailableRamMb with
  | none => pure ⟨Check.name .hostRam, .warn, "could not determine available RAM on this platform"⟩
  | some available =>
      let summary := s!"{available} MB available, need ~{required} MB " ++
        s!"({guests} guest(s) x {memory} MB + {hostRamHeadroomMb} MB headroom)"
      if (required : Int) ≤ available then pure ⟨Check.name .hostRam, .pass, summary⟩
      else if ((guests * memory : Nat) : Int) ≤ available then
        pure ⟨Check.name .hostRam, .warn,
          summary ++ "; guests fit but headroom is tight, expect paging"⟩
      else pure (failed .hostRam summary)

def machineFolder? (stdout : Text) : Option String :=
  ((splitLines stdout).find? fun line =>
    (afterPrefix? "Default machine folder:".toList line).isSome).map fun line =>
      String.ofList (pathText (strip ((line.dropWhile (· ≠ ':')).drop 1)))

/-- `_vbox_machine_folder` of a wrapper that is bound first, where there is an executable. -/
def vboxMachineFolder : CheckProg (Option String) := do
  let path := config.virtualbox.vboxmanage
  if ← asks .hostDisk 0 (isFile path) then do
    asks .hostDisk 1 (bindVBoxManage path)
    let result ← asks .hostDisk 2 (run .listSystemproperties false 120)
    pure (if result.ok then machineFolder? result.stdout.toList else none)
  else
    pure none

def notMeasured (probeDir : String) : PyError → Option (CheckProg (Except CheckResult Nat))
  | .osError exc =>
      some (pure (.error ⟨Check.name .hostDisk, .warn, s!"could not measure {probeDir}: {exc}"⟩))
  | _ => none

/-- The free bytes where the guests are stored, or what is reported instead. -/
def measuredUsage (probeDir : String) : CheckProg (Except CheckResult Nat) :=
  let anchor := String.ofList (pathRoot probeDir.toList)
  Prog.catching (do
    let present ← asks .hostDisk 3 (pathExists probeDir)
    let free ← diskFree .hostDisk 4 (if present then probeDir else anchor)
    pure (.ok free)) (notMeasured probeDir)

/-- `ova.stat().st_size`, where there is an image. -/
def applianceSize : CheckProg (Option Nat) := do
  let ova := config.virtualbox.templateOva
  if ← asks .hostDisk 5 (isFile ova) then do
    let size ← asks .hostDisk 6 (stSize ova)
    pure (some size)
  else
    pure none

def gigabyte : Float := 1024.0 * 1024.0 * 1024.0

variable (oneDecimal : Float → String)

def checkHostDisk : CheckProg CheckResult := do
  let machineFolder ← vboxMachineFolder config
  let ova := config.virtualbox.templateOva
  let probeDir := machineFolder.getD (String.ofList (pathParent ova.toList))
  match ← measuredUsage probeDir with
  | .error warning => pure warning
  | .ok free => do
      let size ← applianceSize config
      let perGuest := size.elim 8.0 fun bytes => Float.ofNat bytes / gigabyte
      let guests := config.allHosts.length
      let required := perGuest * Float.ofNat guests * 1.3
      let freeGb := Float.ofNat free / gigabyte
      let summary := s!"{oneDecimal freeGb} GB free on {probeDir}, need ~{oneDecimal required} GB " ++
        s!"({guests} guest(s) x {oneDecimal perGuest} GB)"
      if required ≤ freeGb then pure ⟨Check.name .hostDisk, .pass, summary⟩
      else pure (failed .hostDisk summary)

/-- The answer where there is no image: `exists` of a wrapper that is bound first. -/
def templateRegistered : CheckProg Bool := do
  let path := config.virtualbox.vboxmanage
  if ← asks .templateOrOva 2 (isFile path) then do
    asks .templateOrOva 3 (bindVBoxManage path)
    asks .templateOrOva 4 (isRegistered config.virtualbox.templateVm)
  else
    pure false

def checkTemplateOrOva : CheckProg CheckResult := do
  let ova := config.virtualbox.templateOva
  let vm := config.virtualbox.templateVm
  if ← asks .templateOrOva 0 (isFile ova) then do
    let size ← asks .templateOrOva 1 (stSize ova)
    let shown := oneDecimal (Float.ofNat size / gigabyte)
    pure ⟨Check.name .templateOrOva, .pass, s!"golden OVA present at {ova} ({shown} GB)"⟩
  else do
    if ← templateRegistered config then
      pure ⟨Check.name .templateOrOva, .warn, s!"no golden OVA yet, but template VM '{vm}' is " ++
        "registered; run 'vmdeploy template' to build the image first"⟩
    else
      pure (failed .templateOrOva
        s!"neither a golden OVA ({ova}) nor the template VM '{vm}' is available")

def runPreflight : CheckProg (List CheckResult) := do
  let vboxmanage ← checkVboxmanage config
  let sshKey ← checkSshKey config
  let keyDirectory ← checkKeyDirectoryWritable config
  let hostRam ← checkHostRam config
  let hostDisk ← checkHostDisk config oneDecimal
  let templateOrOva ← checkTemplateOrOva config oneDecimal
  pure [vboxmanage, sshKey, keyDirectory, hostRam, hostDisk, templateOrOva]

end Checks

end VmDeploy.Preflight
