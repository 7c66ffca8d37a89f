import VmDeploy.Inventory.Manifest
import VmDeploy.Provision.Scope

/-! The `teardown` command, and what the local manifest says of the cluster when it ends. -/

set_option autoImplicit false

open Effects Python

namespace VmDeploy.Provision

open VirtualBox Inventory

def exitOk : Nat := 0

def exitFailure : Nat := 1

/-- `VBoxManage(executable)` -/
def bindVBoxManage (executable : String) : VBoxProg Unit := do
  if ← orOsError (← ask (.isFile executable)) then
    pure ()
  else
    .raise (.virtualBoxError [executable] (-1) "VBoxManage executable not found")

section Command

variable (py : Interpreter) (aead : Aead)

/-- An `InventoryError` is only logged. -/
def recordRemoval (config : ClusterConfig) : FileProg Unit :=
  Prog.catching (do let _ ← markLocalManifest py aead config) fun error =>
    error.inventoryText.map fun exc =>
      request (.warn s!"Cluster destroyed, but the manifest could not be updated: {exc}")

def cmdTeardown (polls : Nat) (config : ClusterConfig) (yes : Bool) :
    Prog (hostSignature.sum fileSignature) PyError Nat := do
  if yes then
    (bindVBoxManage config.virtualbox.vboxmanage).liftLeft
    (teardownCluster (fun vm => destroy polls vm destroyAttempts) config).liftLeft
    (recordRemoval py aead config).liftRight
    pure exitOk
  else
    pure exitFailure

end Command

/-- The automation host: its hypervisor, and its files. -/
structure Desk where
  hypervisor : Hypervisor
  files : LocalFiles

def Desk.withHypervisor (desk : Desk) (hypervisor : Hypervisor) : Desk :=
  { desk with hypervisor }

def Desk.withFiles (desk : Desk) (files : LocalFiles) : Desk :=
  { desk with files }

def deskStep : Step (hostSignature.sum fileSignature) Desk (HypervisorChoice × FileChoice) :=
  (hypervisorStep.focus Desk.hypervisor Desk.withHypervisor).sum
    (localStep.focus Desk.files Desk.withFiles)

/-- Only machines of the cluster were stopped or deleted. A command that returned without a
new warning left every host recorded as removed, and one that raised left the manifest alone. -/
def Recorded (py : Interpreter) (aead : Aead) (config : ClusterConfig) (before : Desk)
    (outcome : Outcome PyError Nat) (after : Desk) : Prop :=
  Spared config.vmNames before.hypervisor after.hypervisor ∧
    match outcome with
    | .returned _ => after.files.warnings = before.files.warnings →
        ∃ records, AllRemoved config records ∧ ManifestReads py aead config records after.files
    | .raised _ => after.files.content config.inventory.manifestFile =
        before.files.content config.inventory.manifestFile
    | .stopped => True

section Proof

variable {py : Interpreter} {aead : Aead} {config : ClusterConfig}

theorem always_hypervisor {A : Type} {p : VBoxProg A}
    (within : p.Only (HostOp.Within config.vmNames)) (desk : Desk) :
    Always deskStep (p.liftLeft : Prog (hostSignature.sum fileSignature) PyError A) desk
      (fun _ after => Spared config.vmNames desk.hypervisor after.hypervisor ∧
        after.files = desk.files) := by
  apply always_liftLeft
  refine (always_focus Desk.hypervisor Desk.withHypervisor (fun _ _ => rfl) (fun _ => rfl)
    (fun _ _ _ => rfl) (always_spared within desk.hypervisor)).mono ?_
  rintro outcome after ⟨hypervisor, rfl, spared⟩
  exact ⟨spared, rfl⟩

theorem always_recordRemoval (opens : aead.Opens) (tagged : aead.Tagged) (files : LocalFiles) :
    Always localStep (recordRemoval py aead config) files (fun outcome after =>
      (∀ value, outcome = .returned value → after.warnings = files.warnings →
        ∃ records, AllRemoved config records ∧ ManifestReads py aead config records after) ∧
      ∀ error, outcome = .raised error → after.content config.inventory.manifestFile =
        files.content config.inventory.manifestFile) := by
  apply always_catching
  apply always_bind
  refine (ends_markLocalManifest opens tagged files).mono ?_
  intro outcome middle ended
  cases outcome with
  | returned records =>
    apply always_done
    constructor
    · exact fun _ _ _ => ended.2
    · intro error other
      cases other
  | raised error =>
    obtain ⟨silent, kept⟩ := ended
    dsimp only
    cases text : error.inventoryText with
    | none =>
      apply always_raise
      constructor
      · intro value other
        cases other
      · exact fun _ _ => kept text
    | some exc =>
      refine always_call ?_ fun x => always_done ?_
      · constructor <;> intro _ other <;> cases other
      constructor
      · intro _ _ unwarned
        have longer := congrArg List.length unwarned
        simp [localStep, silent] at longer
      · intro error other
        cases other
  | stopped => constructor <;> intro _ other <;> cases other

theorem bindVBoxManage_within (executable : String) (names : List String) :
    (bindVBoxManage executable).Only (HostOp.Within names) := by
  apply Prog.Only.bind
  · exact ask_within trivial
  intro reply
  apply Prog.Only.bind (orOsError_within reply)
  intro present
  split <;> trivial

theorem teardown_records_removed (opens : aead.Opens) (tagged : aead.Tagged) (polls : Nat)
    (before : Desk) :
    Always deskStep (cmdTeardown py aead polls config true) before
      (Recorded py aead config before) := by
  have members : ∀ host ∈ config.allHosts, host.vmName ∈ config.vmNames :=
    fun host member => List.mem_map_of_mem member
  rw [cmdTeardown, if_pos rfl]
  apply always_bind
  refine (always_hypervisor (bindVBoxManage_within _ config.vmNames) before).mono ?_
  rintro outcome bound ⟨first, same⟩
  cases outcome with
  | raised error => exact ⟨first, by rw [same]⟩
  | stopped => exact ⟨first, trivial⟩
  | returned _ =>
    apply always_bind
    refine (always_hypervisor (destroyHosts_within polls destroyAttempts members) bound).mono ?_
    rintro outcome destroyed ⟨second, still⟩
    have spared := first.trans second
    have files := still.trans same
    cases outcome with
    | raised error => exact ⟨spared, by rw [files]⟩
    | stopped => exact ⟨spared, trivial⟩
    | returned _ =>
      apply always_bind
      refine (always_liftRight (always_focus Desk.files Desk.withFiles (fun _ _ => rfl)
        (fun _ => rfl) (fun _ _ _ => rfl)
        (always_recordRemoval opens tagged destroyed.files))).mono ?_
      rintro outcome after ⟨left, rfl, returns, raises⟩
      rw [files] at returns raises
      cases outcome with
      | returned value => exact always_done ⟨spared, returns value rfl⟩
      | raised error => exact ⟨spared, raises error rfl⟩
      | stopped => exact ⟨spared, trivial⟩

end Proof

def exampleDeployed : Record String where
  hostname := "apjump"
  role := "jump"
  ipv4 := "192.168.1.20"
  ipv6 := ""
  status := "Deployed"
  statusTimestamp := "2026-01-01T00:00:00Z"
  state := "Active"
  stateTimestamp := "2026-01-01T00:00:00Z"

def deployedSample : Sample where
  key := exampleKey
  nonce := exampleNonce
  plaintext := Utf8.encode (Json.document asciiEscape [toDict exampleDeployed])
  sealed :=
    [28, 8, 246, 59, 190, 239, 226, 59, 173, 97, 181, 227, 222, 154, 12, 3, 226, 187, 226, 22,
      202, 91, 125, 29, 72, 13, 144, 232, 109, 75, 44, 184, 33, 48, 142, 220, 141, 168, 98, 238,
      64, 134, 69, 205, 170, 182, 17, 10, 192, 104, 86, 181, 116, 231, 141, 232, 15, 181, 6, 19,
      56, 195, 213, 206, 210, 85, 182, 12, 229, 243, 28, 65, 62, 118, 134, 100, 207, 175, 46, 200,
      26, 248, 166, 14, 19, 65, 105, 72, 223, 151, 235, 161, 8, 210, 149, 135, 235, 216, 121, 198,
      134, 50, 188, 123, 234, 121, 28, 136, 104, 87, 96, 28, 206, 14, 20, 206, 193, 233, 47, 186,
      109, 223, 119, 239, 241, 146, 15, 122, 222, 13, 116, 175, 217, 178, 184, 39, 105, 140, 56,
      131, 7, 250, 110, 240, 6, 198, 213, 24, 5, 32, 190, 122, 189, 11, 216, 71, 192, 226, 217,
      212, 163, 167, 196, 55, 197, 245, 236, 94, 135, 67, 255, 137, 171, 225, 242, 206, 238, 236,
      240, 2, 169, 239, 22, 204, 9, 176, 185, 162, 21, 231, 155, 249, 51, 108, 170, 218, 47, 174,
      162, 168, 67, 35, 160, 185, 206, 40, 180, 225, 146, 10, 153, 27, 77, 34, 128, 209, 83, 163,
      170, 245, 119, 101, 191, 203, 110, 19, 229, 251, 214, 16, 57, 21, 98, 125, 136, 56, 239, 51,
      118, 113, 136, 238, 179, 40, 3, 189, 172, 47, 60, 9, 201, 195, 245, 208, 129, 120, 218, 62,
      176, 49]

theorem deployedSample_consistent : Consistent [deployedSample] := by
  decide +kernel

def deployedAead : Aead :=
  sampled [deployedSample]

def deployedPayload : Bytes :=
  payload deployedAead exampleKey exampleNonce deployedSample.plaintext

def exampleTeardown : ClusterConfig :=
  Config.exampleCluster "apjump" Config.exampleNodes

def exampleDesk : Desk where
  hypervisor :=
    { machines := [⟨"apubuntuD".toList, "5c1f".toList⟩, ⟨"apjump".toList, "90e2".toList⟩,
        ⟨"apnode1".toList, "1d07".toList⟩]
      issued := [] }
  files :=
    { content := fun path =>
        if path = "inventory.enc" then some deployedPayload
        else if path = "keys/inventory.key" then some (Base64.encode exampleKey)
        else none
      warnings := [] }

def prompting (took : Bool) : HypervisorChoice × FileChoice :=
  (⟨fun
      | .isFile _ => .ok true
      | op => HostOp.idle (.ok ⟨0, "", ""⟩) op, took, []⟩,
    ⟨none, none, "2026-02-01T00:00:00Z", fun count => ⟨List.replicate count 0, List.length_replicate⟩⟩)

/-- The first machine is deleted, and no command has an effect after that. -/
def halfway : Outcome PyError Nat × Desk :=
  (cmdTeardown exampleInterpreter deployedAead 24 exampleTeardown true).eval deskStep exampleDesk
    (List.replicate 4 (prompting true) ++ List.replicate 20 (prompting false))

theorem teardown_keeps_deployed :
    halfway.1 = .raised (.virtualBoxError ["unregistervm", "apnode1", "--delete"] (-1)
      "apnode1 could not be deleted after 3 attempts; last error: still registered") ∧
    ⟨.unregistervm "apjump", true⟩ ∈ halfway.2.hypervisor.issued ∧
    ManifestReads exampleInterpreter deployedAead exampleTeardown [exampleDeployed.map pyText]
      halfway.2.files := by
  refine ⟨by decide +kernel, by decide +kernel, exampleKey, deployedPayload, ?_, ?_, ?_⟩
  · decide +kernel
  · exact (payload_reads (sampled_opens deployedSample_consistent)
      (sampled_tagged deployedSample_consistent) exampleInterpreter exampleTexts rfl rfl
      asciiEscape_escapes mem_sortedFields [exampleDeployed]).2
  · intro _
    exact ⟨Base64.encode exampleKey, by decide +kernel, keyOf_encode _ _ rfl⟩

theorem example_teardown_recorded : Always deskStep
    (cmdTeardown exampleInterpreter deployedAead 24 exampleTeardown true) exampleDesk
    (Recorded exampleInterpreter deployedAead exampleTeardown exampleDesk) :=
  teardown_records_removed (sampled_opens deployedSample_consistent)
    (sampled_tagged deployedSample_consistent) 24 exampleDesk

end VmDeploy.Provision
