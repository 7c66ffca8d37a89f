import VmDeploy.Setup.Template

/-! What a `run_setup` that returns has made of the bootstrap account. -/

set_option autoImplicit false

open Effects Shell

namespace VmDeploy.Setup

open Remote
open Inventory (request orRaise exampleInterpreter meeting)
open VirtualBox (HostOp)

/-- The parts of an account's access that are taken away, in their order. -/
inductive Part where
  | password
  | shell
  | group
  | sudoers
  | keys
  deriving DecidableEq, Repr

def Part.line (user : String) : Part → Line
  | .password => lockPassword user
  | .shell => denyShell user
  | .group => leaveSudo user
  | .sudoers => removeSudoers user
  | .keys => removeKeys user

def Part.action (user : String) : Part → Action
  | .password => .lock user
  | .shell => .setShell "/usr/sbin/nologin" user
  | .group => .leave user
  | .sudoers => .remove (sudoersFile user)
  | .keys => .remove (authorizedKeys user)

def Part.Off (user : String) (guest : Template) : Part → Prop
  | .password => ∀ login ∈ guest.logins user, login.locked = true
  | .shell => ∀ login ∈ guest.logins user, login.shell = "/usr/sbin/nologin"
  | .group => ∀ login ∈ guest.logins user, login.inSudo = false
  | .sudoers => guest.files (sudoersFile user) = none
  | .keys => ∀ login ∈ guest.logins user, guest.files login.keysPath = none

def Part.Reaches (user : String) (guest : Template) : Part → Prop
  | .keys => ∀ login ∈ guest.logins user, login.keysPath = authorizedKeys user
  | _ => True

def Disabled (user : String) (guest : Template) : Prop :=
  ∀ part : Part, part.Off user guest

/-- Root took the part away, or it was already gone. -/
def Attempt.Settles (user : String) (part : Part) (attempt : Attempt) : Prop :=
  attempt.line = part.line user ∧
    (attempt.took = true ∧ part.Reaches user attempt.before ∨ part.Off user attempt.before)

theorem actionOf_line (user : String) (part : Part) :
    actionOf (part.line user).head = part.action user := by
  cases part <;> rfl

theorem line_single (user : String) (part : Part) : Single (part.line user) := by
  cases part <;> exact single_program _

def Part.place : Part → Nat
  | .password => 0
  | .shell => 1
  | .group => 2
  | .sudoers => 3
  | .keys => 4

theorem place_injective {first second : Part} (same : first.place = second.place) :
    first = second := by
  cases first <;> cases second <;> first
    | rfl
    | cases same

theorem sudoersFile_ne (user other : String) : sudoersFile user ≠ authorizedKeys other := by
  intro same
  have split : sudoersFile user = "/etc/sudoers.d/90-" ++ user := rfl
  have joined : authorizedKeys other = "/home/" ++ other ++ "/.ssh" ++ "/authorized_keys" := rfl
  have texts := congrArg String.toList same
  rw [split, joined] at texts
  simp at texts

section Acts

variable {user : String} {guest : Template}

-- Where its action takes effect, a part is gone if it is reached or was gone before.
theorem off_act (part : Part) :
    part.Off user (guest.act (part.action user)) ↔
      part.Reaches user guest ∨ part.Off user guest := by
  cases part with
  | keys =>
    simp only [Part.Off, Part.action, Template.act, Template.setFile, Part.Reaches]
    cases known : guest.logins user with
    | none => simp
    | some login => by_cases same : login.keysPath = authorizedKeys user <;> simp [same]
  | _ => simp [Part.Off, Part.action, Part.Reaches, Template.act, Template.changeLogin,
      Template.setLogin, Template.setFile]

-- The action of a part leaves the parts before it as they are.
theorem off_spared {part earlier : Part} (before : earlier.place < part.place) :
    earlier.Off user (guest.act (part.action user)) ↔ earlier.Off user guest := by
  cases part <;> cases earlier <;> first
    | exact absurd before (by decide)
    | simp [Part.Off, Part.action, Template.act, Template.changeLogin, Template.setLogin,
        Template.setFile, sudoersFile_ne]

end Acts

theorem exists_mem_append {A : Type} {P : A → Prop} {before : List A} {last : A} :
    (∃ a ∈ before ++ [last], P a) ↔ (∃ a ∈ before, P a) ∨ P last := by
  simp [or_and_right, exists_or]

theorem line_injective {user : String} {first second : Part}
    (same : first.line user = second.line user) : first = second := by
  have actions : first.action user = second.action user := by
    rw [← actionOf_line, ← actionOf_line, same]
  cases first <;> cases second <;> first
    | rfl
    | simp [Part.action, sudoersFile_ne, Ne.symm (sudoersFile_ne user user)] at actions

section Attempts

variable {guards : Guards} {env : Option String} {user : String} {site : Site}

-- What one attempt on a part leaves.
theorem sent_part (x : TemplateChoice) (stdin : Option String) (mode : SudoMode) (part : Part) :
    let after := site.sent guards x stdin (.elevated mode (part.line user))
    ∃ attempt : Attempt, after.attempts = site.attempts ++ [attempt] ∧
      attempt.line = part.line user ∧ attempt.before = site.guest ∧
      (part.Off user after.guest ↔ attempt.Settles user part) ∧
      ∀ earlier : Part, earlier.place < part.place →
        (earlier.Off user after.guest ↔ earlier.Off user site.guest) := by
  refine ⟨_, rfl, rfl, rfl, ?_⟩
  simp only [Site.sent, Site.ran, runElevated_single _ (line_single user part), Attempt.Settles,
    true_and]
  cases site.authorised guards mode stdin with
  | false => simp
  | true =>
    simp only [launch, TemplateChoice.perform, actionOf_line, if_true, Bool.true_and]
    cases x.effective (.runs .root (part.line user).head) with
    | false => simp
    | true =>
      simp only [if_true, true_and]
      exact ⟨off_act part, fun earlier before => off_spared before⟩

/-- The parts before a place are gone just where an attempt settled them, and only they have
been attempted. -/
structure Settled (user : String) (place : Nat) (site : Site) : Prop where
  parts : ∀ part : Part, part.place < place →
    (part.Off user site.guest ↔ ∃ attempt ∈ site.attempts, attempt.Settles user part)
  lines : ∀ attempt ∈ site.attempts, ∃ part : Part, part.place < place ∧
    attempt.line = part.line user

theorem settled_sent {part : Part} {place : Nat} (settled : Settled user place site)
    (next : place = part.place ∨ place = part.place + 1) (x : TemplateChoice)
    (stdin : Option String) (mode : SudoMode) :
    Settled user (part.place + 1) (site.sent guards x stdin (.elevated mode (part.line user))) := by
  obtain ⟨attempt, attempts, line, before, gone, spares⟩ :
      ∃ attempt : Attempt, _ ∧ _ ∧ _ ∧ _ ∧ _ := sent_part x stdin mode part
  have within : place ≤ part.place + 1 := by omega
  constructor
  · intro other below
    rw [attempts, exists_mem_append]
    by_cases same : other = part
    · subst same
      rw [gone]
      constructor
      · exact fun settles => .inr settles
      · rintro (⟨found, old, settles⟩ | settles)
        · -- what an earlier attempt on the part settled, this one has found gone
          obtain ⟨known, early, named⟩ := settled.lines found old
          obtain rfl := line_injective (settles.1.symm.trans named)
          have off := (settled.parts _ early).mpr ⟨found, old, settles⟩
          exact ⟨line, .inr (before ▸ off)⟩
        · exact settles
    · have earlier : other.place < part.place := by
        have differs : other.place ≠ part.place := fun alike => same (place_injective alike)
        omega
      rw [spares other earlier, settled.parts other (by omega)]
      constructor
      · exact .inl
      · rintro (old | settles)
        · exact old
        · exact absurd (line_injective (line.symm.trans settles.1)).symm same
  · intro found member
    rw [attempts] at member
    rcases List.mem_append.mp member with old | new
    · obtain ⟨known, early, named⟩ := settled.lines found old
      exact ⟨known, by omega, named⟩
    · rw [List.mem_singleton.mp new]
      exact ⟨part, Nat.lt_succ_self _, line⟩

theorem ends_part {host : RemoteHost} {part : Part} (settled : Settled user part.place site) :
    Always (remoteStep guards env) (host.sudo (part.line user) false none) site
      (Ends (fun _ => True) fun _ => Settled user (part.place + 1)) := by
  have kept : ∀ s, Settled user (part.place + 1) s → True := fun _ _ => trivial
  refine ends_sudo trivial kept ?_ ?_
  · intro x script
    have sent : Settled user (part.place + 1) (site.sent guards x none script) :=
      settled_sent settled (.inl rfl) x none .nonInteractive
    exact ⟨sent, sent⟩
  · intro s x password settled _ _ script
    have sent : Settled user (part.place + 1)
        (s.sent guards x (some (password ++ "\n")) script) :=
      settled_sent settled (.inr rfl) x (some (password ++ "\n")) .readPassword
    exact ⟨sent, sent⟩

-- The five commands end with each part gone just where an attempt settled it.
theorem ends_disable {host : RemoteHost} (fresh : site.attempts = []) :
    Always (remoteStep guards env) (disableBootstrapAccount host user) site
      (Ends (fun _ => True) fun _ after => Settled user 5 after) := by
  have none : Settled user Part.password.place site := by
    constructor
    · exact fun part below => absurd below (Nat.not_lt_zero _)
    · simp [fresh]
  refine ends_bind (ends_part none) fun _ _ settled => ?_
  refine ends_bind (ends_part (show Settled user Part.shell.place _ from settled)) fun _ _ settled => ?_
  refine ends_bind (ends_part (show Settled user Part.group.place _ from settled)) fun _ _ settled => ?_
  refine ends_bind (ends_part (show Settled user Part.sudoers.place _ from settled)) fun _ _ settled => ?_
  refine ends_bind (ends_part (show Settled user Part.keys.place _ from settled)) fun _ _ settled => ?_
  exact always_done settled

end Attempts

section Procedure

variable {guards : Guards} {env : Option String} {site : Site}

theorem ends_isFile {other : Site → Prop} (here : other site) (path : String) :
    Always (setupStep guards env) (onFiles (do orRaise (← request (.isFile path)))) site
      (Ends other fun _ after => after = site) := by
  refine always_call here ?_
  intro x
  have raises : ∀ reply : Except String Bool, Always (setupStep guards env)
      (onFiles (orRaise reply)) site (Ends other fun _ after => after = site) := by
    intro reply
    cases reply with
    | error exc => exact always_raise here
    | ok present => exact always_done rfl
  exact raises _

theorem sessionStep_connect (x : Option ConnectFault) (site : Site) (address : String)
    (ssh : SSHConfig) :
    (∃ fault, sessionStep guards x (.connect address ssh) site = (.error fault, site)) ∨
      guards.admits ssh.user (site.guest.access ssh.user) (site.files.content ssh.keyPath) = true ∧
        sessionStep guards x (.connect address ssh) site =
          (.ok (), { site with account := ssh.user, attempts := [] }) := by
  cases admitted : guards.admits ssh.user (site.guest.access ssh.user)
      (site.files.content ssh.keyPath) with
  | false =>
    exact .inl ⟨x.getD (.authentication "Authentication failed."), by simp [sessionStep, admitted]⟩
  | true =>
    cases x with
    | none => exact .inr ⟨rfl, by simp [sessionStep, admitted]⟩
    | some fault => exact .inl ⟨fault, by simp [sessionStep, admitted]⟩

theorem ends_connect {host : RemoteHost} {other : Site → Prop} (here : other site) :
    Always (setupStep guards env) (connect host) site
      (Ends other fun _ after => after = { site with account := host.ssh.user, attempts := [] } ∧
        guards.admits host.ssh.user (site.guest.access host.ssh.user)
          (site.files.content host.ssh.keyPath) = true) := by
  refine ends_bind (ends_isFile here _) ?_
  rintro present site rfl
  split
  · refine always_call here ?_
    intro x
    have step : setupStep guards env x (Sum.inl (Sum.inr (.connect host.address host.ssh))) site =
        sessionStep guards x.1.2 (.connect host.address host.ssh) site := rfl
    rw [step]
    rcases sessionStep_connect x.1.2 site host.address host.ssh with
      ⟨fault, failed⟩ | ⟨admitted, opened⟩
    · rw [failed]
      cases fault <;> exact always_raise here
    · rw [opened]
      exact always_done ⟨rfl, admitted⟩
  · exact always_raise here

-- What the commands of a session that has just been opened make of the guest.
theorem ends_withHost {A : Type} {host : RemoteHost} {body : RemoteProg A} {other : Site → Prop}
    {post : A → Site → Prop} (here : other site) (kept : ∀ value s, post value s → other s)
    (opened : guards.admits host.ssh.user (site.guest.access host.ssh.user)
        (site.files.content host.ssh.keyPath) = true →
      Always (remoteStep guards env) body
        { site with account := host.ssh.user, attempts := [] } (Ends other post)) :
    Always (setupStep guards env) (withHost host body) site (Ends other post) := by
  refine ends_bind (ends_connect here) ?_
  rintro _ _ ⟨rfl, admitted⟩
  have body : Always (setupStep guards env) (onGuest body) _ (Ends other post) :=
    always_liftLeft (always_liftLeft (opened admitted))
  refine ends_ensuring body ?_ ?_
  · exact fun after kept => always_call kept fun _ => always_done kept
  · exact fun value after ended => always_call (kept value after ended) fun _ => always_done ended

-- What holds of a run on local files holds of it on the files of the site.
theorem always_local {A : Type} {p : Inventory.FileProg A}
    {post : Outcome PyError A → Inventory.LocalFiles → Prop}
    (always : Always Inventory.localStep p site.files post) :
    Always (setupStep guards env) (onFiles p) site
      (fun outcome after => ∃ files, after = { site with files := files } ∧ post outcome files) :=
  always_liftRight (always_liftLeft (always_focus Site.files
    (fun site files => { site with files := files }) (fun _ _ => rfl) (fun _ => rfl)
    (fun _ _ _ => rfl) always))

-- Local files are all that is changed locally.
theorem always_onFiles {A : Type} (p : Inventory.FileProg A) :
    Always (setupStep guards env) (onFiles p) site
      (fun _ after => ∃ files, after = { site with files := files }) := by
  have kept : Always Inventory.localStep p site.files (fun _ _ => True) := fun _ => trivial
  refine Always.mono (always_local kept) ?_
  rintro _ after ⟨files, same, -⟩
  exact ⟨files, same⟩

variable (rt : Runtime) (config : ClusterConfig) (basePath newUser newKeyPath : String)

theorem ends_handOver (address : String) :
    Always (setupStep guards env) (handOver rt config basePath newUser newKeyPath address) site
      (Ends (fun _ => True) fun _ after => Settled config.ssh.user 5 after) := by
  refine ends_bind (ends_withHost trivial (fun _ _ _ => trivial) fun _ => ends_disable rfl) ?_
  intro _ disabled settled
  have writes : Always (setupStep guards env)
      (onFiles (writeLocalOverlay rt basePath newUser newKeyPath)) disabled
      (Ends (fun _ => True) fun _ after => Settled config.ssh.user 5 after) := by
    refine Always.mono (always_onFiles _) ?_
    rintro outcome after ⟨files, rfl⟩
    cases outcome with
    | returned path => exact ⟨settled.parts, settled.lines⟩
    | raised error => trivial
    | stopped => trivial
  refine ends_bind writes ?_
  exact fun _ _ settled => always_done settled

/-- The bootstrap account of a run that returns is disabled if and only if each of its parts was
settled by an attempt of the last session: root took it away, or it was already gone. -/
theorem bootstrap_disabled_iff (py : Inventory.Interpreter) (polls : Nat) (start : Site) :
    Always (setupStep guards env) (runSetup rt py polls config basePath newUser newKeyPath) start
      (Ends (fun _ => True) fun _ after =>
        (Disabled config.ssh.user after.guest ↔
          ∀ part : Part, ∃ attempt ∈ after.attempts, attempt.Settles config.ssh.user part)) := by
  have returns : Always (setupStep guards env)
      (runSetup rt py polls config basePath newUser newKeyPath) start
      (Ends (fun _ => True) fun _ after => Settled config.ssh.user 5 after) := by
    refine ends_bind ends_any fun address _ _ => ?_
    exact ends_handOver rt config basePath newUser newKeyPath address
  refine Always.mono returns ?_
  intro outcome after ended
  cases outcome with
  | returned _ => exact forall_congr' fun part => ended.parts part (by cases part <;> decide)
  | raised error => trivial
  | stopped => trivial

end Procedure

def exampleRuntime : Runtime where
  privatePem := fun seed => seed
  publicText := fun _ => "ssh-ed25519 AAAA"
  str := fun _ => none
  dict := fun _ => .ok []
  digitLimit := none
  encodeError := fun _ => ""
  decodeError := fun _ => ""
  tomlFault := fun _ => .decodeError ""

def openGuards : Guards where
  admits := fun _ _ _ => true
  authorises := fun _ _ _ _ => true

def stockSite : Site where
  guest :=
    { homes := "/home"
      logins := fun user =>
        if user = "vmadmin" then some ⟨false, "/bin/bash", true, "/home/vmadmin"⟩ else none
      files := fun _ => none }
  files :=
    { content := fun path => if path = "keys/vm_key" then some [] else none
      warnings := [] }
  account := ""
  attempts := []

def runningTemplate : (op : HostOp) → op.Reply
  | .isFile _ => .ok true
  | .getaddrinfo _ => .ok ["192.168.1.20".toList]
  | op => HostOp.idle (.ok ⟨0, "\"apubuntuD\" \x7b5c1f\x7d\nVMState=\"running\"\n", ""⟩) op

def failingLock : TemplateChoice where
  output := fun event =>
    if event = .runs .root (lockPassword "vmadmin").head then ⟨1, "", "usermod: cannot lock"⟩
    else ⟨0, "0", ""⟩
  took := fun _ => false
  lost := none
  transfer := .ok ()
  torn := none
  random := [0, 1, 2, 3, 4, 5, 6, 7]

def setupWithFailingLock : Outcome PyError Unit × Site :=
  (runSetup exampleRuntime exampleInterpreter 24 Provision.exampleTeardown "config/cluster.toml"
    "operator" "keys/operator_key").eval (setupStep openGuards (some "secret")) stockSite
    (List.replicate 120 ((failingLock, none), (meeting none, runningTemplate)))

theorem password_survives_setup :
    setupWithFailingLock.1 = .returned () ∧ ¬ Disabled "vmadmin" setupWithFailingLock.2.guest := by
  refine ⟨by decide +kernel, ?_⟩
  have usable : setupWithFailingLock.2.guest.logins "vmadmin" =
      some ⟨false, "/usr/sbin/nologin", false, "/home/vmadmin"⟩ := by
    decide +kernel
  intro disabled
  have locked := disabled .password _ usable
  cases locked

end VmDeploy.Setup
