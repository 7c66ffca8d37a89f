import VmDeploy.Encoding.Utf8
import VmDeploy.Python.Text
import VmDeploy.Remote.Sudo

/-! `arm_cloud_init`: what prepares the golden image to configure each clone from its seed. -/

set_option autoImplicit false

open Effects Shell Python

namespace VmDeploy.Setup

open Remote

def cloudInitDisabledFlag : String := "/etc/cloud/cloud-init.disabled"

def installerDropin : String := "/etc/cloud/cloud.cfg.d/99-installer.cfg"

def datasourceDropin : String := "/etc/cloud/cloud.cfg.d/99-vmdeploy-nocloud.cfg"

def datasourceDropinBody : String :=
  "# Written by vmdeploy when baking the golden image.\n" ++
  "# The appliance ships with no credentials; each guest receives its identity\n" ++
  "# from a NoCloud seed ISO attached at import. Probing NoCloud first is what\n" ++
  "# makes that work; None remains as the fallback for a guest booted without\n" ++
  "# a seed, so it comes up rather than hanging.\n" ++
  "datasource_list: [ NoCloud, None ]\n"

def networkDropin : String := "/etc/cloud/cloud.cfg.d/99-vmdeploy-network.cfg"

def networkDropinBody : String :=
  "# Written by vmdeploy when baking the golden image.\n" ++
  "# The image already carries working netplan/DHCP configuration. cloud-init\n" ++
  "# must not generate its own alongside it, so its network handling is off.\n" ++
  "network: \x7bconfig: disabled\x7d\n"

def removeOptOuts : Line :=
  program ["rm", "-f", cloudInitDisabledFlag, installerDropin]

def cleanCloudInit : Line :=
  program ["cloud-init", "clean", "--logs", "--machine-id"]

/-- `/tmp/` and the last component of the path. -/
def stagedDropin (remotePath : String) : String :=
  "/tmp/" ++ String.ofList (remotePath.toList.reverse.takeWhile (· ≠ '/')).reverse

def installDropin (remotePath : String) : Line :=
  program ["install", "-m", "0644", "-o", "root", "-g", "root", stagedDropin remotePath, remotePath]

def existsTest (path : String) : Simple :=
  ⟨.builtin, ["test", "-e", path], []⟩

def echo (text : String) : Simple :=
  ⟨.builtin, ["echo", text], []⟩

def findOptOuts : Line :=
  ⟨existsTest cloudInitDisabledFlag, [(.andIf, echo cloudInitDisabledFlag),
    (.next, existsTest installerDropin), (.andIf, echo installerDropin), (.next, trueCommand)]⟩

def readDropin (path : String) : Line :=
  tolerated .program ["cat", path]

def verifyCloudInitArmed (host : RemoteHost) : RemoteProg Unit := do
  let found ← host.run (.plain findOptOuts) false none
  let leftovers := strip found.stdout.toList
  if leftovers ≠ [] then
    .raise (.vmDeployError (
      "cloud-init is still disabled in the image; these installer opt-outs survived: " ++
        s!"{String.ofList (reprList (splitWords leftovers))}. " ++
        "Clones would boot with no identity and no way in."))
  else do
    let datasource ← host.sudo (readDropin datasourceDropin) false none
    if !containsText "NoCloud".toList datasource.stdout.toList then
      .raise (.vmDeployError (
        s!"the NoCloud datasource drop-in at {datasourceDropin} is missing or unreadable; " ++
          "clones would not probe for their seed ISO and would boot with no identity."))
    else do
      let network ← host.sudo (readDropin networkDropin) false none
      if !containsText "disabled".toList network.stdout.toList then
        .raise (.vmDeployError (
          s!"the network drop-in at {networkDropin} is missing or unreadable; cloud-init " ++
            "would regenerate netplan on first boot and could break guest networking."))
      else
        pure ()

/-- The loop that installs the drop-ins, each with its path and body. -/
def writeDropins (host : RemoteHost) : List (String × String) → RemoteProg Unit
  | [] => pure ()
  | (remotePath, body) :: rest => do
      let staged := stagedDropin remotePath
      host.putBytes (Utf8.encode body.toList) staged 0o644
      let _ ← host.sudo (installDropin remotePath) true none
      let _ ← host.run (.plain (program ["rm", "-f", staged])) false none
      writeDropins host rest

def dropins : List (String × String) :=
  [(datasourceDropin, datasourceDropinBody), (networkDropin, networkDropinBody)]

def armCloudInit (host : RemoteHost) : RemoteProg Unit := do
  let _ ← host.sudo removeOptOuts true none
  -- The hooks of the clean delete drop-ins, so ours are written after it.
  let _ ← host.sudo cleanCloudInit false none
  writeDropins host dropins
  verifyCloudInitArmed host

abbrev ImageFiles := String → Option (List UInt8)

/-- What a command sets out to do. -/
inductive Deed where
  | remove (paths : List String)
  | install (source target : String)
  | clean
  | test (path : String)
  | show (text : String)
  | read (path : String)
  | succeed
  | other

def deedOf (command : Simple) : Deed :=
  match command.words with
  | [name] => if name = "true" then .succeed else .other
  | [name, operand] =>
      if name = "echo" then .show operand else if name = "cat" then .read operand else .other
  | [name, option, operand] =>
      if name = "rm" ∧ option = "-f" then .remove [operand]
      else if name = "test" ∧ option = "-e" then .test operand
      else .other
  | [name, option, first, second] =>
      if name = "rm" ∧ option = "-f" then .remove [first, second]
      else if name = "cloud-init" ∧ option = "clean" then .clean
      else .other
  | [name, _, _, _, source, target] =>
      if name = "install" then .install source target else .other
  | [name, _, _, _, _, _, _, source, target] =>
      if name = "install" then .install source target else .other
  | _ => .other

/-- What one request meets: the report of each command, the effect of a clean, what a command
that fails leaves of the files it names, and how a transfer ends. -/
structure ArmChoice where
  output : Event → Output
  cleaned : ImageFiles → ImageFiles
  left : String → Option (List UInt8)
  lost : Option String
  transfer : Except String Unit
  random : List UInt8

def ArmChoice.report (x : ArmChoice) (event : Event) (files : ImageFiles) : Deed → Output
  | .test path => ⟨if (files path).isSome then 0 else 1, "", ""⟩
  | .show text => ⟨0, text ++ "\n", ""⟩
  | .succeed => ⟨0, "", ""⟩
  | .read path =>
      match files path with
      | some content => { x.output event with stdout := String.ofList (Utf8.lossy content) }
      | none => ⟨1, "", (x.output event).stderr⟩
  | .install source _ =>
      if (files source).isSome then x.output event else ⟨1, "", (x.output event).stderr⟩
  | _ => x.output event

/-- What a command makes of the files. One that fails leaves those it names in any state. -/
def ArmChoice.act (x : ArmChoice) (succeeds : Bool) (files : ImageFiles) : Deed → ImageFiles
  | .remove paths => fun path =>
      if path ∈ paths then if succeeds then none else x.left path else files path
  | .install source target =>
      Function.update files target (if succeeds then files source else x.left target)
  | .clean => x.cleaned files
  | _ => files

def ArmChoice.perform (x : ArmChoice) : Perform ImageFiles
  | .runs who command, files =>
      let report := x.report (.runs who command) files (deedOf command)
      (report, x.act (report.exitStatus = 0) files (deedOf command))
  | event, files => (x.output event, files)

def image : Environment ImageFiles ArmChoice where
  perform := ArmChoice.perform
  lost := ArmChoice.lost
  transfer
    | x, .exec _ _ _, files => (.error (x.lost.getD ""), files)
    | _, .getenv _, files => (none, files)
    | x, .openSftp, files => (x.transfer, files)
    | x, .sftpWrite path payload, files =>
        (x.transfer, Function.update files path
          (if x.transfer.isOk then some payload else x.left path))
    | x, .sftpPut _ _, files => (x.transfer, files)
    | x, .urandom _, files => (x.random, files)

abbrev armStep (policy : Policy) (env : Option String) : Step remoteSignature ImageFiles ArmChoice :=
  image.step policy env

section Commands

variable {policy : Policy} {env : Option String} {host : RemoteHost} {inv : ImageFiles → Prop}
  {files : ImageFiles}

def Spares (inv : ImageFiles → Prop) (path : String) : Prop :=
  ∀ files content, inv files → inv (Function.update files path content)

theorem act_remove (x : ArmChoice) (succeeds : Bool) (files : ImageFiles) (path : String) :
    x.act succeeds files (.remove [path]) =
      Function.update files path (if succeeds then none else x.left path) := by
  funext other
  simp only [ArmChoice.act, List.mem_singleton, Function.update_apply]
  split_ifs with same <;> simp [same]

theorem upholds_install {line : Line} (single : Single line) {source target : String}
    (deed : deedOf line.head = .install source target) (apart : source ≠ target)
    (spares : Spares inv target) {content : List UInt8} (held : inv files)
    (here : files source = some content) :
    Upholds (armStep policy env) (host.sudo line true none) files
      (fun after => inv after ∧ after source = some content)
      (fun _ after => after target = some content) := by
  have copied : ∀ (x : ArmChoice) (after : ImageFiles), inv after ∧ after source = some content →
      let result := x.perform (.runs .root line.head) after
      (inv result.2 ∧ result.2 source = some content) ∧
        (result.1.exitStatus = 0 → result.2 target = some content) := by
    rintro x after ⟨here, source_here⟩
    have reported : x.report (.runs .root line.head) after (.install source target) =
        x.output (.runs .root line.head) := if_pos (by rw [source_here]; rfl)
    simp only [ArmChoice.perform, deed, reported, ArmChoice.act]
    refine ⟨⟨spares after _ here, ?_⟩, ?_⟩
    · rw [Function.update_of_ne apart]
      exact source_here
    · intro good
      rw [Function.update_self, good, source_here]
      rfl
  refine upholds_sudo_single single ⟨held, here⟩ (fun x after kept => (copied x after kept).1)
    (fun unchecked => absurd unchecked (by decide)) ?_
  exact fun _ x after kept checked => (copied x after kept).2 (checked rfl)

theorem upholds_discard {path : String} (spares : Spares inv path) (held : inv files) :
    Upholds (armStep policy env) (host.run (.plain (program ["rm", "-f", path])) false none) files inv
      (fun _ _ => True) := by
  refine upholds_run held (fun x => ?_) (fun _ _ => trivial)
  rw [ran_plain _ _ (single_program _)]
  have deed : deedOf (program ["rm", "-f", path]).head = .remove [path] := rfl
  simp only [launch, image, ArmChoice.perform, deed, act_remove]
  exact spares files _ held

theorem upholds_putBytes (payload : List UInt8) {target : String} (mode : Nat)
    (apart : ∀ random, stagingPath random ≠ target)
    (staging : ∀ random, Spares inv (stagingPath random)) (spares : Spares inv target)
    (held : inv files) :
    Upholds (armStep policy env) (host.putBytes payload target mode) files inv
      (fun _ after => after target = some payload) := by
  refine upholds_call held fun x => ?_
  change Upholds _ (host.openSftp.bind _) files _ _
  have opened : Upholds (armStep policy env) host.openSftp files inv (fun _ _ => True) := by
    refine upholds_call held fun y => ?_
    change Upholds _ (Prog.bind (.done y.transfer) _) files _ _
    cases y.transfer with
    | error exc => exact upholds_raise held
    | ok _ => exact upholds_done held trivial
  refine upholds_bind opened fun _ after kept _ => ?_
  refine upholds_call kept fun y => ?_
  have written := fun content => staging x.random after content kept
  change Upholds _ (Prog.bind (.done y.transfer) _) (Function.update after (stagingPath x.random)
    (if y.transfer.isOk then some payload else y.left (stagingPath x.random))) _ _
  cases y.transfer with
  | error exc => exact upholds_raise (written _)
  | ok _ =>
    have placed : Upholds (armStep policy env)
        (host.sudo (program ["install", "-D", "-m", octal mode, stagingPath x.random, target]) true none)
        (Function.update after (stagingPath x.random) (some payload)) inv
        (fun _ after => after target = some payload) :=
      (upholds_install (single_program _) rfl (apart x.random) spares (written _)
        (Function.update_self _ _ _)).mono (fun _ both => both.1) fun _ _ _ here => here
    change Upholds _ ((host.sudo _ true none).bind fun _ => (host.run _ false none).bind _)
      (Function.update after (stagingPath x.random) (some payload)) _ _
    refine upholds_bind placed fun _ last still here => ?_
    have discarded : Upholds (armStep policy env)
        (host.run (.plain (program ["rm", "-f", stagingPath x.random])) false none) last
        (fun after => inv after ∧ after target = some payload) (fun _ _ => True) := by
      refine upholds_discard ?_ ⟨still, here⟩
      intro files content both
      refine ⟨staging x.random files content both.1, ?_⟩
      rw [Function.update_of_ne (apart x.random).symm]
      exact both.2
    refine upholds_bind (discarded.mono (fun _ both => both.1) fun _ _ both _ => both.2) ?_
    exact fun _ _ held here => upholds_done held here

def Temporary (path : String) : Prop :=
  "/tmp/".toList <+: path.toList

theorem temporary_staging (random : List UInt8) : Temporary (stagingPath random) := by
  rw [Temporary, stagingPath, String.toList_append]
  exact ⟨"vmdeploy-".toList ++ (hex random).toList, rfl⟩

theorem temporary_staged (path : String) : Temporary (stagedDropin path) := by
  rw [Temporary, stagedDropin, String.toList_append]
  exact List.prefix_append _ _

-- The drop-ins that are written are all in place in the end.
theorem upholds_writeDropins {written : List (String × String)}
    (distinct : (written.map Prod.fst).Nodup)
    (lasting : ∀ dropin ∈ written, ¬ Temporary dropin.1)
    (named : ∀ dropin ∈ written, ∀ random, stagingPath random ≠ stagedDropin dropin.1)
    (temporary : ∀ path, Temporary path → Spares inv path)
    (spares : ∀ dropin ∈ written, Spares inv dropin.1) (held : inv files) :
    Upholds (armStep policy env) (writeDropins host written) files (fun _ => True)
      (fun _ after => inv after ∧
        ∀ dropin ∈ written, after dropin.1 = some (Utf8.encode dropin.2.toList)) := by
  induction written generalizing inv files with
  | nil => exact upholds_done trivial ⟨held, by simp⟩
  | cons dropin rest ih =>
    obtain ⟨path, body⟩ := dropin
    obtain ⟨fresh, distinct⟩ := List.nodup_cons.mp distinct
    have here := List.mem_cons_self (a := (path, body)) (l := rest)
    have elsewhere : ∀ {other : String}, Temporary other → other ≠ path := by
      intro other temporary same
      exact lasting (path, body) here (same ▸ temporary)
    have put : Upholds (armStep policy env)
        (host.putBytes (Utf8.encode body.toList) (stagedDropin path) 0o644) files inv
        (fun _ after => after (stagedDropin path) = some (Utf8.encode body.toList)) :=
      upholds_putBytes _ _ (named (path, body) here) (fun random => temporary _ (temporary_staging random))
        (temporary _ (temporary_staged path)) held
    refine upholds_bind (put.mono (fun _ _ => trivial) fun _ _ kept staged => And.intro kept staged) ?_
    rintro _ after _ ⟨kept, staged⟩
    have single : Single (installDropin path) := single_program _
    have deed : deedOf (installDropin path).head = .install (stagedDropin path) path := rfl
    have placed : Upholds (armStep policy env) (host.sudo (installDropin path) true none) after
        (fun after => inv after ∧ after (stagedDropin path) = some (Utf8.encode body.toList))
        (fun _ after => after path = some (Utf8.encode body.toList)) :=
      upholds_install single deed (elsewhere (temporary_staged path)) (spares (path, body) here) kept staged
    refine upholds_bind (placed.mono (fun _ _ => trivial) fun _ _ both placed =>
      And.intro both.1 placed) ?_
    intro _ after _ both
    have wider : ∀ other, Temporary other → Spares (fun files => inv files ∧
        files path = some (Utf8.encode body.toList)) other := by
      rintro other temp files content ⟨kept, placed⟩
      refine ⟨temporary other temp files content kept, ?_⟩
      rw [Function.update_of_ne (elsewhere temp).symm]
      exact placed
    have discarded : Upholds (armStep policy env)
        (host.run (.plain (program ["rm", "-f", stagedDropin path])) false none) after
        (fun files => inv files ∧ files path = some (Utf8.encode body.toList)) (fun _ _ => True) :=
      upholds_discard (wider _ (temporary_staged path)) both
    refine upholds_bind (discarded.mono (fun _ _ => trivial) fun _ _ both _ => both) ?_
    intro _ last _ both
    have others : ∀ dropin ∈ rest, Spares (fun files => inv files ∧
        files path = some (Utf8.encode body.toList)) dropin.1 := by
      rintro dropin member files content ⟨kept, placed⟩
      refine ⟨spares dropin (List.mem_cons_of_mem _ member) files content kept, ?_⟩
      have differs : path ≠ dropin.1 := by
        intro same
        exact fresh (List.mem_map.mpr ⟨dropin, member, same.symm⟩)
      rw [Function.update_of_ne differs]
      exact placed
    have later := ih distinct (fun dropin member => lasting dropin (List.mem_cons_of_mem _ member))
      (fun dropin member => named dropin (List.mem_cons_of_mem _ member)) wider others both
    refine later.mono (fun _ _ => trivial) ?_
    rintro _ final _ ⟨⟨kept, placed⟩, all⟩
    refine ⟨kept, ?_⟩
    intro dropin member
    rcases List.mem_cons.mp member with rfl | member
    · exact placed
    · exact all dropin member

def shownOptOuts (disabled installer : Bool) : String :=
  (if disabled then cloudInitDisabledFlag ++ "\n" else "") ++
    (if installer then installerDropin ++ "\n" else "")

theorem find_reports (x : ArmChoice) (files : ImageFiles) :
    let ran := image.ran x policy none (.plain findOptOuts) files
    ran.world = files ∧ ran.output.stdout =
      shownOptOuts (files cloudInitDisabledFlag).isSome (files installerDropin).isSome := by
  have tests : ∀ path, x.perform (.runs .user (existsTest path)) files =
      (⟨if (files path).isSome then 0 else 1, "", ""⟩, files) := fun _ => rfl
  have shows : ∀ text, x.perform (.runs .user (echo text)) files = (⟨0, text ++ "\n", ""⟩, files) :=
    fun _ => rfl
  have succeeds : x.perform (.runs .user trueCommand) files = (⟨0, "", ""⟩, files) := rfl
  have plain : ∀ path, (existsTest path).touchesFiles = false := fun _ => rfl
  have silent : ∀ text, (echo text).touchesFiles = false := fun _ => rfl
  have idle : trueCommand.touchesFiles = false := rfl
  cases disabled : files cloudInitDisabledFlag <;> cases installer : files installerDropin <;>
    simp [disabled, installer, image, Environment.ran, Script.run, Line.run, findOptOuts, Tail.run, Progress.start,
      Progress.advance, Progress.finish, Connective.continues, Simple.run, opening, launch,
      tests, shows, succeeds, plain, silent, idle, shownOptOuts]

theorem read_keeps (x : ArmChoice) (stdin : Option String) (mode : SudoMode) (path : String) :
    (image.ran x policy stdin (.elevated mode (readDropin path)) files).world = files := by
  refine script_keeps (fun after => after = files) ?_ ?_ rfl
  · exact fun _ _ _ _ here => here
  · intro who command member after here
    simp only [Script.line, readDropin, tolerated, Line.commands, List.map_cons, List.map_nil,
      List.mem_cons, List.not_mem_nil, or_false] at member
    rcases member with rfl | rfl
    · exact here
    · exact here

theorem upholds_read (path : String) :
    Upholds (armStep policy env) (host.sudo (readDropin path) false none) files (· = files)
      (fun _ _ => True) := by
  refine upholds_sudo rfl (fun x => read_keeps x _ _ path) (fun _ _ => trivial) ?_
  intro x y password _ _ _
  have same : (image.ran x policy none (.elevated .nonInteractive (readDropin path)) files).world =
      files := read_keeps x none .nonInteractive path
  rw [same]
  exact ⟨read_keeps y _ _ path, fun _ => trivial⟩

-- The verification changes nothing, and returns only where no opt-out is left.
theorem upholds_verifyCloudInitArmed :
    Upholds (armStep policy env) (verifyCloudInitArmed host) files (· = files)
      (fun _ after => after cloudInitDisabledFlag = none ∧ after installerDropin = none) := by
  have reported : ∀ x : ArmChoice,
      (image.ran x policy none (.plain findOptOuts) files).world = files ∧ _ :=
    fun x => find_reports x files
  have found : Upholds (armStep policy env) (host.run (.plain findOptOuts) false none) files
      (· = files) (fun result _ => result.stdout =
        shownOptOuts (files cloudInitDisabledFlag).isSome (files installerDropin).isSome) :=
    upholds_run rfl (fun x => (reported x).1) fun x _ => (reported x).2
  have clearShown : ∀ disabled installer, strip (shownOptOuts disabled installer).toList = [] →
      disabled = false ∧ installer = false := by
    decide
  refine upholds_bind found ?_
  rintro result _ rfl shown
  dsimp only
  split
  · exact upholds_raise rfl
  · next clear =>
    rw [shown, not_not] at clear
    obtain ⟨disabled, installer⟩ := clearShown _ _ clear
    have gone := And.intro (Option.isSome_eq_false_iff.mp disabled)
      (Option.isSome_eq_false_iff.mp installer)
    simp only [Option.isNone_iff_eq_none] at gone
    refine upholds_bind (upholds_read datasourceDropin) ?_
    rintro datasource _ rfl -
    split
    · exact upholds_raise rfl
    · refine upholds_bind (upholds_read networkDropin) ?_
      rintro network _ rfl -
      split
      · exact upholds_raise rfl
      · exact upholds_done rfl gone

theorem dropins_apart : (dropins.map Prod.fst).Nodup ∧ (∀ dropin ∈ dropins, ¬ Temporary dropin.1) ∧
    ∀ dropin ∈ dropins, ∀ random, stagingPath random ≠ stagedDropin dropin.1 := by
  have staged : ∀ random digits, stagingPath random ≠ "/tmp/99-" ++ digits := by
    intro random digits same
    have texts := congrArg String.toList same
    simp [stagingPath] at texts
  refine ⟨by decide, ?_, ?_⟩
  · intro dropin member
    simp only [dropins, List.mem_cons, List.not_mem_nil, or_false] at member
    rcases member with rfl | rfl
    · unfold Temporary; decide
    · unfold Temporary; decide
  · intro dropin member random
    simp only [dropins, List.mem_cons, List.not_mem_nil, or_false] at member
    rcases member with rfl | rfl
    · rw [show stagedDropin datasourceDropin = "/tmp/99-" ++ "vmdeploy-nocloud.cfg" by rfl]
      exact staged random _
    · rw [show stagedDropin networkDropin = "/tmp/99-" ++ "vmdeploy-network.cfg" by rfl]
      exact staged random _

/-- When `arm_cloud_init` returns, whatever the clean did, no opt-out is left and each drop-in
has its body. -/
theorem armed_when_returned :
    Always (armStep policy env) (armCloudInit host) files fun outcome after =>
      outcome = .returned () →
        (after cloudInitDisabledFlag = none ∧ after installerDropin = none) ∧
          after datasourceDropin = some (Utf8.encode datasourceDropinBody.toList) ∧
          after networkDropin = some (Utf8.encode networkDropinBody.toList) := by
  have any : ∀ {A : Type} (p : RemoteProg A) (files : ImageFiles),
      Upholds (armStep policy env) p files (fun _ => True) (fun _ _ => True) :=
    fun p files _ => ⟨trivial, fun _ _ => trivial⟩
  obtain ⟨distinct, lasting, named⟩ := dropins_apart
  have armed : Upholds (armStep policy env) (armCloudInit host) files (fun _ => True)
      (fun _ after => (after cloudInitDisabledFlag = none ∧ after installerDropin = none) ∧
        ∀ dropin ∈ dropins, after dropin.1 = some (Utf8.encode dropin.2.toList)) := by
    refine upholds_bind (any _ _) fun _ _ _ _ => ?_
    refine upholds_bind (any _ _) fun _ cleaned _ _ => ?_
    have written : Upholds (armStep policy env) (writeDropins host dropins) cleaned (fun _ => True)
        (fun _ after => True ∧
          ∀ dropin ∈ dropins, after dropin.1 = some (Utf8.encode dropin.2.toList)) :=
      upholds_writeDropins distinct lasting named (fun _ _ _ _ here => here)
        (fun _ _ _ _ here => here) trivial
    refine upholds_bind written ?_
    rintro _ placed _ ⟨-, all⟩
    have verified : Upholds (armStep policy env) (verifyCloudInitArmed host) placed (· = placed) _ :=
      upholds_verifyCloudInitArmed
    refine verified.mono (fun _ _ => trivial) ?_
    rintro _ _ rfl gone
    exact ⟨gone, all⟩
  refine Always.mono armed ?_
  rintro outcome after ⟨-, returned⟩ same
  obtain ⟨gone, all⟩ := returned () same
  exact ⟨gone, all _ List.mem_cons_self, all _ (List.mem_cons_of_mem _ List.mem_cons_self)⟩

end Commands

end VmDeploy.Setup
