import VmDeploy.Config
import VmDeploy.Effects.Program
import VmDeploy.Exceptions
import VmDeploy.Shell.CommandLine

/-! `ssh_client.py`: the operations of a connected `RemoteHost`.

Remote commands are shell scripts in parsed form, so that what a shell makes of
the text is part of the model; `Script.text` gives back what is sent. -/

set_option autoImplicit false

open Effects Shell

namespace VmDeploy.Remote

def sudoPasswordEnv : String := "VMDEPLOY_SUDO_PASSWORD"

/-- What a session asks of the guest and of the environment it runs in. -/
inductive RemoteOp where
  | exec (script : Script) (stdin : Option String) (timeoutSeconds : Nat)
  | openSftp
  | sftpWrite (path : String) (payload : List UInt8)
  | sftpPut (localPath path : String)
  | urandom (count : Nat)
  | getenv (name : String)

/-- Requests over the transport may fail with the text of the exception. -/
abbrev RemoteOp.Reply : RemoteOp → Type
  | .exec _ _ _ => Except String Output
  | .openSftp => Except String Unit
  | .sftpWrite _ _ => Except String Unit
  | .sftpPut _ _ => Except String Unit
  | .urandom _ => List UInt8
  | .getenv _ => Option String

abbrev remoteSignature : Signature :=
  ⟨RemoteOp, RemoteOp.Reply⟩

abbrev RemoteProg (A : Type) :=
  Prog remoteSignature PyError A

def ask (op : RemoteOp) : RemoteProg op.Reply :=
  Prog.perform (I := remoteSignature) op

structure CommandResult where
  command : String
  exitStatus : Nat
  stdout : String
  stderr : String
  deriving DecidableEq, Repr

def CommandResult.ok (result : CommandResult) : Bool :=
  result.exitStatus == 0

def CommandResult.of (command : String) (output : Output) : CommandResult :=
  ⟨command, output.exitStatus, output.stdout, output.stderr⟩

@[simp] theorem ok_of_iff (command : String) (output : Output) :
    (CommandResult.of command output).ok = true ↔ output.exitStatus = 0 := by
  simp [CommandResult.ok, CommandResult.of]

/-- A connected session. -/
structure RemoteHost where
  address : String
  ssh : SSHConfig

variable (host : RemoteHost)

/-- `timeout or self._ssh_config.command_timeout_seconds` -/
def RemoteHost.effectiveTimeout (timeout : Option Nat) : Nat :=
  match timeout with
  | some (seconds + 1) => seconds + 1
  | _ => host.ssh.commandTimeoutSeconds

/-- A captured result, or `RemoteCommandError` when a non-zero exit is checked. -/
def captured (command : String) (output : Output) (check : Bool) : RemoteProg CommandResult :=
  if check && output.exitStatus != 0 then
    .raise (.remoteCommandError command output.exitStatus output.stdout output.stderr)
  else
    .done (.of command output)

def RemoteHost.run (script : Script) (check : Bool) (timeout : Option Nat) :
    RemoteProg CommandResult := do
  match ← ask (.exec script none (host.effectiveTimeout timeout)) with
  | .error exc =>
      .raise (.sshConnectionError s!"Command failed on {host.address}: {script.text}: {exc}")
  | .ok output => captured script.text output check

def sudoPassword : RemoteProg String := do
  match ← ask (.getenv sudoPasswordEnv) with
  | some password =>
      if password ≠ "" then pure password else .raise missingPassword
  | none => .raise missingPassword
where
  missingPassword : PyError :=
    .sshConnectionError (s!"Privileged remote commands require the {sudoPasswordEnv} environment " ++
      "variable to be set, or passwordless sudo to be configured on the guest")

/-- The second attempt of `sudo`, with the password on standard input. -/
def RemoteHost.sudoWithPassword (line : Line) (check : Bool) (timeout : Option Nat)
    (password : String) : RemoteProg CommandResult := do
  let escalated := Script.elevated .readPassword line
  match ← ask (.exec escalated (some (password ++ "\n")) (host.effectiveTimeout timeout)) with
  | .error exc =>
      .raise (.sshConnectionError
        s!"Privileged command failed on {host.address}: {line.text}: {exc}")
  | .ok output => captured escalated.text output check

def RemoteHost.sudo (line : Line) (check : Bool) (timeout : Option Nat) :
    RemoteProg CommandResult := do
  let passwordless ← host.run (.elevated .nonInteractive line) false timeout
  if passwordless.ok then
    pure passwordless
  else do
    let password ← sudoPassword
    host.sudoWithPassword line check timeout password

section Only

variable {host} {P : RemoteOp → Prop} {check : Bool} {timeout : Option Nat}

theorem captured_only {command : String} {output : Output} :
    (captured command output check).Only P := by
  unfold captured
  split <;> trivial

theorem run_only {script : Script} (sends : ∀ seconds, P (.exec script none seconds)) :
    (host.run script check timeout).Only P := by
  refine Prog.Only.bind ⟨sends _, fun _ => trivial⟩ ?_
  intro reply
  cases reply with
  | error exc => trivial
  | ok output => exact captured_only

theorem sudo_only {line : Line} (reads : P (.getenv sudoPasswordEnv))
    (sends : ∀ mode stdin seconds, P (.exec (.elevated mode line) stdin seconds)) :
    (host.sudo line check timeout).Only P := by
  refine Prog.Only.bind (run_only (sends _ _)) ?_
  intro first
  split
  · trivial
  · refine Prog.Only.bind ?_ ?_
    · refine Prog.Only.bind ⟨reads, fun _ => trivial⟩ ?_
      intro password
      split
      · split <;> trivial
      · trivial
    · intro password
      refine Prog.Only.bind ⟨sends _ _ _, fun _ => trivial⟩ ?_
      intro reply
      cases reply with
      | error exc => trivial
      | ok output => exact captured_only

end Only

section Raises

variable {host} {P : PyError → Prop} {check : Bool} {timeout : Option Nat}

/-- The two errors of a session. -/
structure SessionErrors (P : PyError → Prop) : Prop where
  lost : ∀ message, P (.sshConnectionError message)
  failed : ∀ command status stdout stderr, P (.remoteCommandError command status stdout stderr)

theorem captured_raises {command : String} {output : Output} (session : SessionErrors P) :
    (captured command output check).Raises P := by
  unfold captured
  split
  · exact session.failed _ _ _ _
  · trivial

theorem run_raises {script : Script} (session : SessionErrors P) :
    (host.run script check timeout).Raises P := by
  intro reply
  cases reply with
  | error exc => exact session.lost _
  | ok output => exact captured_raises session

theorem sudo_raises {line : Line} (session : SessionErrors P) :
    (host.sudo line check timeout).Raises P := by
  refine Prog.Raises.bind (run_raises session) fun first => ?_
  split
  · trivial
  · refine Prog.Raises.bind ?_ fun password => ?_
    · intro reply
      cases reply with
      | none => exact session.lost _
      | some password =>
        dsimp only [Prog.bind]
        split
        · trivial
        · exact session.lost _
    · intro reply
      cases reply with
      | error exc => exact session.lost _
      | ok output => exact captured_raises session

end Raises

/-- `bytes.hex()` -/
def hex (bytes : List UInt8) : String :=
  String.ofList (bytes.flatMap fun byte =>
    [Nat.digitChar (byte.toNat / 16), Nat.digitChar (byte.toNat % 16)])

-- What holds of the sixteen digits holds of every character of a hexadecimal text.
theorem hex_forall {P : Char → Prop} (digits : ∀ digit : Fin 16, P (Nat.digitChar digit))
    (bytes : List UInt8) : ∀ c ∈ (hex bytes).toList, P c := by
  intro c member
  simp only [hex, String.toList_ofList, List.mem_flatMap, List.mem_cons, List.not_mem_nil,
    or_false] at member
  obtain ⟨byte, _, rfl | rfl⟩ := member
  · exact digits ⟨byte.toNat / 16, by have := byte.toNat_lt; omega⟩
  · exact digits ⟨byte.toNat % 16, by omega⟩

theorem digitChar_injective {first second : Nat} (small : first < 16) (tiny : second < 16)
    (same : Nat.digitChar first = Nat.digitChar second) : first = second := by
  have all : ∀ a b : Fin 16, Nat.digitChar a = Nat.digitChar b → a = b := by decide
  exact congrArg Fin.val (all ⟨first, small⟩ ⟨second, tiny⟩ same)

theorem hex_injective : Function.Injective hex := by
  intro first second same
  replace same := String.ofList_injective same
  induction first generalizing second with
  | nil =>
    cases second with
    | nil => rfl
    | cons byte rest => simp at same
  | cons byte rest ih =>
    cases second with
    | nil => simp at same
    | cons other others =>
      simp only [List.flatMap_cons, List.cons_append, List.nil_append, List.cons.injEq] at same
      obtain ⟨high, low, later⟩ := same
      have bound := byte.toNat_lt
      have limit := other.toNat_lt
      have highs := digitChar_injective (by omega) (by omega) high
      have lows := digitChar_injective (by omega) (by omega) low
      rw [ih later, UInt8.toNat_inj.mp (show byte.toNat = other.toNat by omega)]

def octal (mode : Nat) : String :=
  String.ofList (Nat.toDigits 8 mode)

def program (words : List String) : Line :=
  ⟨⟨.program, words, []⟩, []⟩

def trueCommand : Simple :=
  ⟨.builtin, ["true"], []⟩

/-- `{words} 2>/dev/null || true` -/
def tolerated (kind : Kind) (words : List String) : Line :=
  ⟨⟨kind, words, [.discardErrors]⟩, [(.orIf, trueCommand)]⟩

theorem elevated_tolerated {W : Type} {perform : Perform W}
    (idle : ∀ w, perform (.runs .user trueCommand) w = (⟨0, "", ""⟩, w)) (authorised : Bool)
    (words : List String) (w : W) :
    let head := sudoHead perform authorised (tolerated .program words).head w
    let ran := (tolerated .program words).runElevated perform authorised w
    ran.output.exitStatus = 0 ∧ ran.output.stdout = head.output.stdout ∧ ran.world = head.world := by
  have plain : (tolerated .program words).head.touchesFiles = false := rfl
  intro head ran
  have same : ran = Tail.run perform .user [(.orIf, trueCommand)] head := by
    simp [ran, head, Line.runElevated, opening, plain]
    rfl
  rw [same]
  by_cases status : head.output.exitStatus = 0
  · rw [tail_skipped perform .user _ head (by simp [Tail.skipped, Connective.continues, status])]
    exact ⟨status, rfl, rfl⟩
  · simp [Tail.run, Progress.advance, Progress.start, Progress.finish, Connective.continues, status,
      Simple.run, opening, launch, idle, show trueCommand.touchesFiles = false from rfl]

def stagingPath (random : List UInt8) : String :=
  "/tmp/vmdeploy-" ++ hex random

def RemoteHost.openSftp : RemoteProg Unit := do
  match ← ask .openSftp with
  | .error exc => .raise (.sshConnectionError s!"Cannot open SFTP to {host.address}: {exc}")
  | .ok () => pure ()

def RemoteHost.putBytes (payload : List UInt8) (remotePath : String) (mode : Nat) :
    RemoteProg Unit := do
  let staging := stagingPath (← ask (.urandom 8))
  host.openSftp
  match ← ask (.sftpWrite staging payload) with
  | .error exc =>
      .raise (.sshConnectionError
        s!"Failed staging {payload.length} bytes to {host.address}:{staging}: {exc}")
  | .ok () => do
      let _ ← host.sudo (program ["install", "-D", "-m", octal mode, staging, remotePath]) true none
      let _ ← host.run (.plain (program ["rm", "-f", staging])) false none
      pure ()

end VmDeploy.Remote
