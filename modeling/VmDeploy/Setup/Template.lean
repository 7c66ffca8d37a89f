import VmDeploy.Remote.Session
import VmDeploy.Setup.Bootstrap

/-! The template machine under the commands of `setup.py`.

A command changes no account and no file but those it names. One that exits with zero has done
what it is for; one that fails may have done it or not. Who is let in, and who may use `sudo`,
depends on what the guest holds for the account, in a way that is left open. -/

set_option autoImplicit false

open Effects Shell

namespace VmDeploy.Setup

open Remote
open VirtualBox (HostOp hostSignature)
open Inventory (Bytes FileChoice LocalFiles fileSignature localStep)

structure Login where
  locked : Bool
  shell : String
  inSudo : Bool
  home : String
  deriving DecidableEq, Repr

/-- Owner and mode are kept as commands write them. -/
structure RemoteFile where
  content : Bytes
  owner : String
  mode : String
  deriving DecidableEq, Repr

/-- The directory that `useradd` makes homes in is a setting of the guest. -/
structure Template where
  homes : String
  logins : String → Option Login
  files : String → Option RemoteFile

/-- What the guest holds for an account. -/
structure Access where
  login : Option Login
  sudoers : Option RemoteFile
  keys : Option RemoteFile
  deriving DecidableEq, Repr

def Login.keysPath (login : Login) : String :=
  s!"{login.home}/.ssh/authorized_keys"

def Template.access (guest : Template) (user : String) : Access where
  login := guest.logins user
  sudoers := guest.files (sudoersFile user)
  keys := (guest.logins user).bind fun login => guest.files login.keysPath

def Template.setLogin (guest : Template) (user : String) (login : Option Login) : Template :=
  { guest with logins := Function.update guest.logins user login }

def Template.setFile (guest : Template) (path : String) (file : Option RemoteFile) : Template :=
  { guest with files := Function.update guest.files path file }

inductive Action where
  | create (shell user : String)
  | join (user : String)
  | leave (user : String)
  | lock (user : String)
  | setShell (shell user : String)
  | remove (path : String)
  | place (mode staging path : String)
  | own (owner path : String)
  | restrict (mode path : String)
  | other
  deriving DecidableEq, Repr

def actionOf (command : Simple) : Action :=
  match command.words with
  | [name, first, second] =>
      if name = "usermod" ∧ first = "-L" then .lock second
      else if name = "rm" ∧ first = "-f" then .remove second
      else if name = "chown" then .own first second
      else if name = "chmod" then .restrict first second
      else .other
  | [name, flag, first, second] =>
      if name = "usermod" ∧ flag = "-s" then .setShell first second
      else if name = "usermod" ∧ flag = "-aG" ∧ first = "sudo" then .join second
      else if name = "gpasswd" ∧ flag = "-d" ∧ second = "sudo" then .leave first
      else .other
  | [name, _, _, shell, user] => if name = "useradd" then .create shell user else .other
  | [name, flag, _, mode, staging, path] =>
      if name = "install" ∧ flag = "-D" then .place mode staging path else .other
  | _ => .other

/-- What one choice decides about a request. -/
structure TemplateChoice where
  output : Event → Output
  took : Event → Bool
  lost : Option String
  transfer : Except String Unit
  torn : Option Bytes
  random : List UInt8

def Template.changeLogin (guest : Template) (user : String) (change : Login → Login) : Template :=
  guest.setLogin user ((guest.logins user).map change)

def Template.changeFile (guest : Template) (path : String) (change : RemoteFile → RemoteFile) :
    Template :=
  guest.setFile path ((guest.files path).map change)

/-- What an action does when it takes effect. A new account has no password. -/
def Template.act (guest : Template) : Action → Template
  | .create shell user =>
      if (guest.logins user).isSome then guest
      else guest.setLogin user (some ⟨true, shell, false, s!"{guest.homes}/{user}"⟩)
  | .join user => guest.changeLogin user fun login => { login with inSudo := true }
  | .leave user => guest.changeLogin user fun login => { login with inSudo := false }
  | .lock user => guest.changeLogin user fun login => { login with locked := true }
  | .setShell shell user => guest.changeLogin user fun login => { login with shell := shell }
  | .remove path => guest.setFile path none
  | .place mode staging path =>
      guest.setFile path ((guest.files staging).map fun file => ⟨file.content, "root:root", mode⟩)
  | .own owner path => guest.changeFile path fun file => { file with owner := owner }
  | .restrict mode path => guest.changeFile path fun file => { file with mode := mode }
  | .other => guest

def TemplateChoice.effective (x : TemplateChoice) (event : Event) : Bool :=
  (x.output event).exitStatus == 0 || x.took event

def TemplateChoice.perform (x : TemplateChoice) : Perform Template
  | .runs who command, guest =>
      (x.output (.runs who command),
        if x.effective (.runs who command) then guest.act (actionOf command) else guest)
  | event, guest => (x.output event, guest)

def Template.received (guest : Template) (x : TemplateChoice) (user path : String)
    (payload : Bytes) : Template :=
  match x.transfer, x.torn with
  | .ok _, _ => guest.setFile path (some ⟨payload, user, "644"⟩)
  | .error _, some part => guest.setFile path (some ⟨part, user, "644"⟩)
  | .error _, none => guest

/-- Whom a guest lets in by which private key, and what `sudo` makes of a session. -/
structure Guards where
  admits : (user : String) → Access → (privateKey : Option Bytes) → Bool
  authorises : (user : String) → Access → SudoMode → (stdin : Option String) → Bool

/-- A line sent with `sudo` in front, the guest it found, and whether root ran its head to effect. -/
structure Attempt where
  line : Line
  before : Template
  took : Bool

/-- The guest, the local files, and the session that was opened last: its account, and its
attempts with `sudo`. -/
structure Site where
  guest : Template
  files : LocalFiles
  account : String
  attempts : List Attempt

abbrev SetupChoice : Type :=
  (TemplateChoice × Option ConnectFault) × (FileChoice × ((op : HostOp) → op.Reply))

section Steps

variable (guards : Guards) (env : Option String)

def Site.authorised (site : Site) (mode : SudoMode) (stdin : Option String) : Bool :=
  guards.authorises site.account (site.guest.access site.account) mode stdin

def Site.ran (x : TemplateChoice) (stdin : Option String) (site : Site) : Script → Ran Template
  | .plain line => line.run x.perform .user site.guest
  | .elevated mode line =>
      line.runElevated x.perform (site.authorised guards mode stdin) site.guest

def Site.attempted (x : TemplateChoice) (stdin : Option String) (site : Site) :
    Script → List Attempt
  | .plain _ => site.attempts
  | .elevated mode line =>
      site.attempts ++ [⟨line, site.guest,
        site.authorised guards mode stdin && x.effective (.runs .root line.head)⟩]

def Site.sent (x : TemplateChoice) (stdin : Option String) (site : Site) (script : Script) : Site :=
  { site with
    guest := (site.ran guards x stdin script).world
    attempts := site.attempted guards x stdin script }

def remoteStep : Step remoteSignature Site TemplateChoice
  | x, .exec script stdin _, site =>
      (match x.lost with
        | some exc => .error exc
        | none => .ok (site.ran guards x stdin script).output, site.sent guards x stdin script)
  | x, .openSftp, site => (x.transfer, site)
  | x, .sftpWrite path payload, site =>
      (x.transfer, { site with guest := site.guest.received x site.account path payload })
  | x, .sftpPut _ _, site => (x.transfer, site)
  | x, .urandom _, site => (x.random, site)
  | _, .getenv name, site => (if name = sudoPasswordEnv then env else none, site)

/-- An account that is let in may still not be reached. -/
def sessionStep : Step sessionSignature Site (Option ConnectFault)
  | x, .connect _ ssh, site =>
      if guards.admits ssh.user (site.guest.access ssh.user) (site.files.content ssh.keyPath) then
        match x with
        | some fault => (.error fault, site)
        | none => (.ok (), { site with account := ssh.user, attempts := [] })
      else (.error (x.getD (.authentication "Authentication failed.")), site)
  | _, .close, site => ((), site)

def replyStep : Step hostSignature Site ((op : HostOp) → op.Reply) :=
  fun reply op site => (reply op, site)

abbrev setupStep : Step setupSignature Site SetupChoice :=
  ((remoteStep guards env).sum (sessionStep guards)).sum
    ((localStep.focus Site.files fun site files => { site with files := files }).sum replyStep)

end Steps

section Sessions

variable {guards : Guards} {env : Option String} {host : RemoteHost} {other inv : Site → Prop}
  {site : Site} {check : Bool} {timeout : Option Nat}

theorem ends_captured {command : String} {output : Output} (here : other site) :
    Always (remoteStep guards env) (captured command output check) site
      (Ends other fun result after => after = site ∧ result = .of command output) := by
  unfold captured
  split
  · exact always_raise here
  · exact always_done ⟨rfl, rfl⟩

theorem ends_run {script : Script} (here : other site)
    (sent : ∀ x, other (site.sent guards x none script)) :
    Always (remoteStep guards env) (host.run script check timeout) site
      (Ends other fun result after => ∃ x, after = site.sent guards x none script ∧
        result = .of script.text (site.ran guards x none script).output) := by
  refine always_call here ?_
  intro x
  cases lost : x.lost with
  | some exc =>
    simp only [remoteStep, lost]
    exact always_raise (sent x)
  | none =>
    simp only [remoteStep, lost]
    refine Always.mono (ends_captured (sent x)) ?_
    intro outcome after ended
    cases outcome with
    | returned result => exact ⟨x, ended⟩
    | raised error => exact ended
    | stopped => exact ended

-- The password comes from the environment.
theorem ends_sudoPassword (here : other site) :
    Always (remoteStep guards env) sudoPassword site (Ends other fun password after =>
      after = site ∧ env = some password ∧ password ≠ "") := by
  refine always_call here ?_
  intro x
  simp only [remoteStep, if_true]
  cases env with
  | none => exact always_raise here
  | some password =>
    dsimp only [Prog.bind]
    split
    · next visible => exact always_done ⟨rfl, rfl, visible⟩
    · exact always_raise here

-- One attempt with `sudo`, and maybe a second one after it.
theorem ends_sudo {line : Line} {post : CommandResult → Site → Prop} (here : other site)
    (kept : ∀ s, inv s → other s)
    (first : ∀ x, let script := Script.elevated .nonInteractive line
      inv (site.sent guards x none script) ∧
        post (.of script.text (site.ran guards x none script).output)
          (site.sent guards x none script))
    (again : ∀ s x password, inv s → env = some password → password ≠ "" →
      let script := Script.elevated .readPassword line
      inv (s.sent guards x (some (password ++ "\n")) script) ∧
        post (.of script.text (s.ran guards x (some (password ++ "\n")) script).output)
          (s.sent guards x (some (password ++ "\n")) script)) :
    Always (remoteStep guards env) (host.sudo line check timeout) site (Ends other post) := by
  refine ends_bind (ends_run here fun x => kept _ (first x).1) ?_
  rintro _ _ ⟨x, rfl, rfl⟩
  split
  · exact always_done (first x).2
  · refine ends_bind (ends_sudoPassword (kept _ (first x).1)) ?_
    rintro password _ ⟨rfl, known, visible⟩
    refine always_call (kept _ (first x).1) ?_
    intro y
    obtain ⟨held, result⟩ := again _ y password (first x).1 known visible
    cases lost : y.lost with
    | some exc =>
      simp only [remoteStep, lost]
      exact always_raise (kept _ held)
    | none =>
      simp only [remoteStep, lost]
      refine Always.mono (ends_captured (kept _ held)) ?_
      intro outcome after ended
      cases outcome with
      | returned result' =>
        obtain ⟨rfl, rfl⟩ := ended
        exact result
      | raised error => exact ended
      | stopped => exact ended

end Sessions

end VmDeploy.Setup
