import VmDeploy.Remote.Sudo

/-! What `put_bytes` leaves of the file it stages.

The connection works: every script is answered. The SFTP channel, the transfer, `sudo` and
every command may fail. -/

set_option autoImplicit false

open Effects Shell

namespace VmDeploy.Remote

/-- The files of the guest, and the scripts it was sent. -/
structure Desk where
  files : String → Option (List UInt8)
  scripts : List Script

/-- What one call meets: how each request ends, and what the failing ones leave. -/
structure Transfer where
  random : List UInt8
  opened : Except String Unit
  written : Except String Unit
  torn : Option (List UInt8)
  output : Script → Output
  spoiled : Script → Option (List UInt8)

section Guest

variable (x : Transfer)

/-- `install` refuses to copy a file onto itself, and a failing one leaves its source alone. -/
def Transfer.installed (script : Script) (source target : String)
    (files : String → Option (List UInt8)) : Output × (String → Option (List UInt8)) :=
  if source = target then (⟨1, "", "are the same file"⟩, files)
  else if (x.output script).exitStatus = 0 then
    match files source with
    | some content => (x.output script, Function.update files target (some content))
    | none => (⟨1, "", "cannot stat"⟩, files)
  else (x.output script, Function.update files target (x.spoiled script))

def Transfer.removed (script : Script) (path : String) (files : String → Option (List UInt8)) :
    Output × (String → Option (List UInt8)) :=
  (x.output script,
    if (x.output script).exitStatus = 0 then Function.update files path none else files)

def Transfer.perform (script : Script) : Perform (String → Option (List UInt8))
  | .opens _ _, files => (x.output script, files)
  | .runs _ command, files =>
      match command.words with
      | ["install", "-D", "-m", _, source, target] => x.installed script source target files
      | ["rm", "-f", path] => x.removed script path files
      | _ => (x.output script, files)

def transferStep (policy : Policy) (env : Option String) : Step remoteSignature Desk Transfer
  | x, .exec script stdin _, desk =>
      let ran := script.run (x.perform script) policy stdin desk.files
      (.ok ran.output, ⟨ran.world, desk.scripts ++ [script]⟩)
  | _, .getenv name, desk => (if name = sudoPasswordEnv then env else none, desk)
  | x, .openSftp, desk => (x.opened, desk)
  | x, .sftpWrite path payload, desk =>
      (x.written, { desk with
        files := Function.update desk.files path (if x.written.isOk then some payload else x.torn) })
  | x, .sftpPut _ path, desk =>
      (x.written, { desk with files := Function.update desk.files path x.torn })
  | x, .urandom _, desk => (x.random, desk)

end Guest

section Install

variable (policy : Policy) (env : Option String) (x : Transfer) (mode : Nat)
  (staging remotePath : String)

def installLine : Line :=
  program ["install", "-D", "-m", octal mode, staging, remotePath]

/-- `sudo` lets this attempt copy the file to another path, and `install` exits with zero. -/
def Transfer.Copies (attempt : SudoMode) (stdin : Option String) : Prop :=
  policy.authorises attempt stdin = true ∧ staging ≠ remotePath ∧
    (x.output (.elevated attempt (installLine mode staging remotePath))).exitStatus = 0

def Transfer.Installs : Prop :=
  x.Copies policy mode staging remotePath .nonInteractive none ∨
    (env.getD "" ≠ "" ∧
      x.Copies policy mode staging remotePath .readPassword (some (env.getD "" ++ "\n")))

variable {policy env x mode staging remotePath}

-- An attempt never loses the staged file, and exits with zero where it copies it.
theorem ran_install (policy : Policy) (x : Transfer) (mode : Nat) (remotePath : String)
    (attempt : SudoMode) (stdin : Option String) {payload : List UInt8}
    {files : String → Option (List UInt8)} (staged : files staging = some payload) :
    let script := Script.elevated attempt (installLine mode staging remotePath)
    let ran := script.run (x.perform script) policy stdin files
    ran.world staging = some payload ∧
      (ran.output.exitStatus = 0 ↔ x.Copies policy mode staging remotePath attempt stdin) := by
  intro script ran
  have attempted : ran = if policy.authorises attempt stdin then
      launch (x.perform script) .root (installLine mode staging remotePath).head files
      else ⟨refusal (installLine mode staging remotePath).head, [], files⟩ :=
    runElevated_single (x.perform script) (single_program _) _ files
  have runs : x.perform script (.runs .root (installLine mode staging remotePath).head) files =
      x.installed script staging remotePath files := rfl
  rw [attempted, Transfer.Copies]
  by_cases authorised : policy.authorises attempt stdin = true
  · rw [if_pos authorised, launch, runs, Transfer.installed]
    by_cases same : staging = remotePath
    · subst same
      simp [staged]
    · by_cases good : (x.output script).exitStatus = 0
      · simp only [if_neg same, if_pos good, staged, Function.update_of_ne same]
        exact ⟨trivial, fun status => ⟨authorised, same, status⟩, fun copies => copies.2.2⟩
      · simp only [if_neg same, if_neg good, staged, Function.update_of_ne same]
        exact ⟨trivial, fun status => ⟨authorised, same, status⟩, fun copies => copies.2.2⟩
  · rw [if_neg authorised]
    simp [refusal, staged, authorised]

-- The staged file is still there after both attempts, which return only where one copies it.
theorem execute_install (policy : Policy) (env : Option String) (x : Transfer) (mode : Nat)
    (remotePath : String) (host : RemoteHost) {payload : List UInt8} {desk : Desk}
    (staged : desk.files staging = some payload) :
    let ended := (host.sudo (installLine mode staging remotePath) true none).execute
      (transferStep policy env x) desk
    ended.2.files staging = some payload ∧
      ((x.Installs policy env mode staging remotePath ∧ ∃ result, ended.1 = .returned result) ∨
        (¬ x.Installs policy env mode staging remotePath ∧ ∃ error, ended.1 = .raised error)) := by
  obtain ⟨kept, copies⟩ := ran_install policy x mode remotePath .nonInteractive none staged
  obtain ⟨again, retried⟩ := ran_install policy x mode remotePath .readPassword
    (some (env.getD "" ++ "\n")) kept
  have ends := execute_sudo_ends (transferStep policy env x) env
    (installLine mode staging remotePath)
    (fun attempt stdin desk =>
      let script := Script.elevated attempt (installLine mode staging remotePath)
      let ran := script.run (x.perform script) policy stdin desk.files
      (ran.output, ⟨ran.world, desk.scripts ++ [script]⟩))
    host none (fun _ _ _ _ => rfl) (fun _ => rfl) desk
  dsimp only at ends ⊢
  rw [Transfer.Installs, ← copies, ← retried]
  rcases ends with ⟨good, result, ended⟩ | ⟨bad, empty, error, ended⟩ |
    ⟨bad, supplied, good, result, ended⟩ | ⟨bad, supplied, worse, error, ended⟩
  · rw [ended]
    exact ⟨kept, .inl ⟨.inl good, result, rfl⟩⟩
  · rw [ended]
    exact ⟨kept, .inr ⟨by tauto, error, rfl⟩⟩
  · rw [ended]
    exact ⟨again, .inl ⟨.inr ⟨supplied, good⟩, result, rfl⟩⟩
  · rw [ended]
    exact ⟨again, .inr ⟨by tauto, error, rfl⟩⟩

end Install

section Staging

variable (policy : Policy) (env : Option String) (x : Transfer) (destination : String) (mode : Nat)

/-- The staged file is gone, and where the call raised before any script was sent the
destination is as it was. -/
def Discarded (before : Desk) (ended : Outcome PyError Unit × Desk) : Prop :=
  ended.2.files (stagingPath x.random) = none ∧
    ((∃ error, ended.1 = .raised error) → ended.2.scripts = before.scripts →
      ended.2.files destination = before.files destination)

def discardLine (staging : String) : Line :=
  program ["rm", "-f", staging]

theorem removed_iff {x : Transfer} {script : Script} {path : String} {content : List UInt8}
    {files : String → Option (List UInt8)} (here : files path = some content) :
    (x.removed script path files).2 path = none ↔ (x.output script).exitStatus = 0 := by
  unfold Transfer.removed
  by_cases good : (x.output script).exitStatus = 0
  · simp [good]
  · simp [good, here]

theorem execute_discard (host : RemoteHost) (path : String) (desk : Desk) :
    ((host.run (.plain (discardLine path)) false none).bind fun _ => .done ()).execute
        (transferStep policy env x) desk =
      (Outcome.returned (), ⟨(x.removed (.plain (discardLine path)) path desk.files).2,
        desk.scripts ++ [.plain (discardLine path)]⟩) := by
  rfl

/-- Nothing was written under the name, or the transfer failed and left nothing there, or the
copy and the removal both succeeded. -/
def Transfer.Discards (before : Desk) : Prop :=
  let staging := stagingPath x.random
  (x.opened.isOk = false ∧ before.files staging = none) ∨
    (x.opened.isOk = true ∧ x.written.isOk = false ∧ x.torn = none ∧
      (destination = staging → before.files destination = none)) ∨
    (x.opened.isOk = true ∧ x.written.isOk = true ∧
      x.Installs policy env mode staging destination ∧
      (x.output (.plain (discardLine staging))).exitStatus = 0)

variable {policy env x destination mode} {before : Desk} (host : RemoteHost) (payload : List UInt8)

def Desk.with (desk : Desk) (path : String) (content : Option (List UInt8)) : Desk :=
  { desk with files := Function.update desk.files path content }

theorem execute_unopened (policy : Policy) {exc : String} (opened : x.opened = .error exc) :
    ∃ error, (host.putBytes payload destination mode).execute (transferStep policy env x) before =
      (.raised error, before) := by
  refine ⟨.sshConnectionError s!"Cannot open SFTP to {host.address}: {exc}", ?_⟩
  simp [RemoteHost.putBytes, RemoteHost.openSftp, ask, Prog.perform, Prog.bind, Prog.execute,
    transferStep, opened]

theorem execute_torn {exc : String} {value : Unit} (opened : x.opened = .ok value)
    (written : x.written = .error exc) :
    ∃ error, (host.putBytes payload destination mode).execute (transferStep policy env x) before =
      (.raised error, before.with (stagingPath x.random) x.torn) := by
  refine ⟨.sshConnectionError (s!"Failed staging {payload.length} bytes to {host.address}:" ++
    s!"{stagingPath x.random}: {exc}"), ?_⟩
  simp [RemoteHost.putBytes, RemoteHost.openSftp, ask, Prog.perform, Prog.bind, Prog.execute,
    transferStep, opened, written, Except.isOk, Except.toBool, Desk.with, String.append_assoc]

theorem execute_staged {value other : Unit} (opened : x.opened = .ok value)
    (written : x.written = .ok other) :
    (host.putBytes payload destination mode).execute (transferStep policy env x) before =
      ((host.sudo (installLine mode (stagingPath x.random) destination) true none).bind fun _ =>
        (host.run (.plain (discardLine (stagingPath x.random))) false none).bind fun _ =>
          .done ()).execute (transferStep policy env x)
            (before.with (stagingPath x.random) (some payload)) := by
  simp [RemoteHost.putBytes, RemoteHost.openSftp, ask, Prog.perform, Prog.bind, Prog.execute,
    transferStep, opened, written, Except.isOk, Except.toBool, Desk.with, installLine, discardLine]

/-- `put_bytes` discards what it staged exactly where no step after the transfer fails, or
there is nothing to discard. -/
theorem putBytes_discards_iff :
    Discarded x destination before ((host.putBytes payload destination mode).execute
        (transferStep policy env x) before) ↔
      x.Discards policy env destination mode before := by
  cases opened : x.opened with
  | error exc =>
    obtain ⟨error, raised⟩ := execute_unopened host payload policy opened
    rw [raised]
    simp [Discarded, Transfer.Discards, opened, Except.isOk, Except.toBool]
  | ok _ =>
    cases written : x.written with
    | error exc =>
      obtain ⟨error, raised⟩ := execute_torn host payload opened written
      rw [raised]
      have here : (before.with (stagingPath x.random) x.torn).files (stagingPath x.random) = x.torn :=
        Function.update_self _ _ _
      simp only [Discarded, Transfer.Discards, opened, written, Except.isOk, Except.toBool, here,
        true_and, Bool.true_eq_false, Bool.false_eq_true, false_and, and_false, false_or, or_false]
      constructor
      · rintro ⟨gone, spared⟩
        refine ⟨gone, fun itself => ?_⟩
        rw [← spared ⟨_, rfl⟩ rfl, itself, here, gone]
      · rintro ⟨gone, absent⟩
        refine ⟨gone, fun _ _ => ?_⟩
        by_cases itself : destination = stagingPath x.random
        · rw [absent itself, itself, here, gone]
        · exact Function.update_of_ne itself _ _
    | ok _ =>
      have staged : (before.with (stagingPath x.random) (some payload)).files
          (stagingPath x.random) = some payload := Function.update_self _ _ _
      obtain ⟨kept, copied⟩ := execute_install policy env x mode destination host staged
      rw [execute_staged host payload opened written]
      simp only [Discarded, Transfer.Discards, opened, written, Except.isOk, Except.toBool,
        true_and, Bool.true_eq_false, false_and, false_or]
      generalize ran : (host.sudo (installLine mode (stagingPath x.random) destination) true
        none).execute (transferStep policy env x) _ = ended at kept copied
      obtain ⟨outcome, after⟩ := ended
      rcases copied with ⟨installs, result, rfl⟩ | ⟨fails, error, rfl⟩
      · rw [execute_bind ran, execute_discard]
        replace kept : after.files (stagingPath x.random) = some payload := kept
        have returned : ¬ ∃ error, (Outcome.returned () : Outcome PyError Unit) = .raised error := by
          simp
        constructor
        · rintro ⟨gone, _⟩
          exact ⟨installs, (removed_iff kept).mp gone⟩
        · rintro ⟨_, good⟩
          exact ⟨(removed_iff kept).mpr good, fun raised => absurd raised returned⟩
      · rw [execute_bind_raised ran]
        replace kept : after.files (stagingPath x.random) = some payload := kept
        simp [kept, fails]

def diskFull : Transfer where
  random := [0xde, 0xad, 0xbe, 0xef, 0xde, 0xad, 0xbe, 0xef]
  opened := .ok ()
  written := .ok ()
  torn := none
  output
    | .elevated _ _ => ⟨1, "", "No space left on device"⟩
    | .plain _ => ⟨0, "", ""⟩
  spoiled _ := none

/-- The staged key survives the call that could not install it. -/
theorem failed_install_keeps_staged_key :
    ¬ Discarded diskFull "/opt/inventory/inventory.key" ⟨fun _ => none, []⟩
      ((exampleHost.putBytes [1, 2, 3] "/opt/inventory/inventory.key" 0o640).execute
        (transferStep .passwordless none diskFull) ⟨fun _ => none, []⟩) := by
  rintro ⟨gone, _⟩
  revert gone
  decide

end Staging

end VmDeploy.Remote
