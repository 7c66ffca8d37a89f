import VmDeploy.VirtualBox.Manage

/-! `VBoxManage` methods that create, equip and remove cluster machines. -/

set_option autoImplicit false

open Effects Python

namespace VmDeploy.VirtualBox

def importAppliance (source vm : String) : VBoxProg Unit := do
  if ← orOsError (← ask (.isFile source)) then
    let _ ← run (.importVm source vm) true applianceTimeoutSeconds
    pure ()
  else
    .raise (.virtualBoxError ["import", source] (-1) "appliance file not found")

def configure (vm : String) (memoryMb cpus : Nat) : VBoxProg Unit := do
  let _ ← run (.modifyvmSizing vm memoryMb cpus) true 120
  pure ()

def setBridgeAdapter (vm bridgeInterface : String) : VBoxProg Unit := do
  let _ ← run (.modifyvmBridge vm bridgeInterface) true 120
  pure ()

/-- The value of the first `bridgeadapter1=` line of `showvminfo`. -/
def bridgeOfInfo (lines : List Text) : Text :=
  ((lines.filterMap (afterPrefix? "bridgeadapter1=".toList)).head?.map
    fun value => stripBy (· == '"') (strip value)).getD []

def bridgeInterfaceOf (vm : String) : VBoxProg String := do
  let result ← run (.showvminfo vm) false 120
  pure (String.ofList (bridgeOfInfo (splitLines result.stdout.toList)))

/-- `(.*)"$` on the rest of a line. -/
def upToLastQuote (text : Text) : Option Text :=
  if text.getLast? = some '"' then some text.dropLast else none

/-- `^storagecontrollername\d+="(.*)"$` -/
def controllerOfLine (line : Text) : Option Text := do
  let rest ← afterPrefix? "storagecontrollername".toList line
  let (_, rest) ← someOf isDecimal rest
  upToLastQuote (← afterPrefix? "=\"".toList rest)

structure Attachment where
  port : Nat
  device : Nat
  medium : Text
  deriving DecidableEq, Repr

/-- `^"name-(\d+)-(\d+)"="(.*)"$`; both numbers have 32 bits, which `int` always converts. -/
def attachmentOfLine (name line : Text) : Option Attachment := do
  let rest ← afterPrefix? ('"' :: name ++ ['-']) line
  let (port, rest) ← someOf isDecimal rest
  let rest ← afterPrefix? ['-'] rest
  let (device, rest) ← someOf isDecimal rest
  let medium ← upToLastQuote (← afterPrefix? "\"=\"".toList rest)
  some ⟨decimalNumber port, decimalNumber device, medium⟩

def endsWith (ending text : Text) : Bool :=
  (afterPrefix? ending.reverse text.reverse).isSome

def Attachment.optical (attachment : Attachment) : Bool :=
  attachment.medium = "emptydrive".toList || endsWith ".iso".toList (lower attachment.medium)

def freeSlot (slot : Text × Attachment) : Bool :=
  slot.2.medium = "none".toList && containsText "ide".toList (lower slot.1)

def attachments (info : Text) : List (Text × Attachment) :=
  ((patternLines info).filterMap controllerOfLine).flatMap fun name =>
    ((patternLines info).filterMap (attachmentOfLine name)).map fun attachment => (name, attachment)

def opticalSlot (vm : String) : VBoxProg (String × Nat × Nat) := do
  let info ← run (.showvminfo vm) false 120
  let slots := attachments info.stdout.toList
  match (slots.find? fun slot => slot.2.optical) <|> slots.find? freeSlot with
  | some (name, attachment) => pure (String.ofList name, attachment.port, attachment.device)
  | none =>
      let controllers := (patternLines info.stdout.toList).filterMap controllerOfLine
      .raise (.virtualBoxError ["showvminfo", vm] (-1)
        (s!"{vm} exposes no optical drive slot to attach a cloud-init seed to; " ++
          s!"storage controllers found: {String.ofList (reprList controllers)}"))

def attachOptical (vm isoPath : String) : VBoxProg Unit := do
  let (controller, port, device) ← opticalSlot vm
  let _ ← run (.storageattach vm controller port device isoPath) true 120
  pure ()

def destroyAttempts : Nat := 3

/-- The first of the three texts that is not empty. -/
def deleteError (result : ProcessResult) : String :=
  let stderr := strip result.stderr.toList
  let stdout := strip result.stdout.toList
  String.ofList (if stderr ≠ [] then stderr else if stdout ≠ [] then stdout
    else "still registered".toList)

/-- The delete loop of `destroy`, with the attempts left and the last error. -/
def deleteUntilGone (vm : String) (attempts : Nat) : Nat → String → VBoxProg Unit
  | 0, lastError =>
      .raise (.virtualBoxError ["unregistervm", vm, "--delete"] (-1)
        (s!"{vm} could not be deleted after {attempts} attempts; " ++
          s!"last error: {lastError}"))
  | left + 1, _ => do
      let result ← run (.unregistervm vm) false 300
      if ← isRegistered vm then
        ask (.sleep pollIntervalMs)
        deleteUntilGone vm attempts left (deleteError result)
      else
        pure ()

def destroy (polls : Nat) (vm : String) (attempts : Nat) : VBoxProg Unit := do
  if ← isRegistered vm then
    powerOff polls vm 120
    deleteUntilGone vm attempts attempts ""
  else
    pure ()

end VmDeploy.VirtualBox
