import VmDeploy.Setup.Disabled

/-! Who can log in and reach root at each point of a `run_setup`. -/

set_option autoImplicit false

open Effects Shell

namespace VmDeploy.Setup

open Remote
open Inventory (request orRaise exampleInterpreter meeting)
open VirtualBox (HostOp)

def OwnPath (user path : String) : Prop :=
  path = authorizedKeys user ∨ path = sudoersFile user ∨ ∃ random, path = stagingPath random

/-- The account and the files an action names are those of one user. -/
def Action.Concerns (user : String) : Action → Prop
  | .create _ named => named = user
  | .join named => named = user
  | .leave named => named = user
  | .lock named => named = user
  | .setShell _ named => named = user
  | .remove path => OwnPath user path
  | .place _ _ path => OwnPath user path
  | .own _ path => OwnPath user path
  | .restrict _ path => OwnPath user path
  | .other => True

/-- The guest is changed in one account and in its files only. -/
structure Confined (user : String) (before after : Template) : Prop where
  logins : ∀ other, other ≠ user → after.logins other = before.logins other
  files : ∀ path, ¬ OwnPath user path → after.files path = before.files path
  home : ∀ login ∈ after.logins user, (∃ homes : String, login.home = s!"{homes}/{user}") ∨
    ∃ old ∈ before.logins user, login.home = old.home

namespace Confined

variable {user : String} {guest middle last : Template}

theorem refl (guest : Template) : Confined user guest guest :=
  ⟨fun _ _ => rfl, fun _ _ => rfl, fun login here => .inr ⟨login, here, rfl⟩⟩

theorem trans (first : Confined user guest middle) (second : Confined user middle last) :
    Confined user guest last := by
  constructor
  · exact fun other differs => (second.logins other differs).trans (first.logins other differs)
  · exact fun path foreign => (second.files path foreign).trans (first.files path foreign)
  · intro login here
    rcases second.home login here with made | ⟨old, found, same⟩
    · exact .inl made
    · rcases first.home old found with ⟨homes, made⟩ | ⟨older, there, alike⟩
      · exact .inl ⟨homes, same.trans made⟩
      · exact .inr ⟨older, there, same.trans alike⟩

theorem setFile {path : String} (own : OwnPath user path) (file : Option RemoteFile) :
    Confined user guest (guest.setFile path file) := by
  constructor
  · exact fun _ _ => rfl
  · intro other foreign
    have differs : other ≠ path := fun same => foreign (same ▸ own)
    exact Function.update_of_ne differs _ _
  · exact fun login here => .inr ⟨login, here, rfl⟩

theorem changeLogin {change : Login → Login} (homes : ∀ login, (change login).home = login.home) :
    Confined user guest (guest.changeLogin user change) := by
  constructor
  · exact fun other differs => Function.update_of_ne differs _ _
  · exact fun _ _ => rfl
  · intro login here
    have changed : (guest.logins user).map change = some login :=
      (Function.update_self user _ _).symm.trans here
    obtain ⟨old, found, rfl⟩ := Option.map_eq_some_iff.mp changed
    exact .inr ⟨old, found, homes old⟩

theorem create (shell : String) : Confined user guest (guest.act (.create shell user)) := by
  simp only [Template.act]
  split
  · exact refl guest
  · constructor
    · exact fun other differs => Function.update_of_ne differs _ _
    · exact fun _ _ => rfl
    · intro login here
      have made := (Function.update_self user _ _).symm.trans here
      cases made
      exact .inl ⟨guest.homes, rfl⟩

-- An action changes no account and no file but those it names.
theorem act {action : Action} (concerns : action.Concerns user) :
    Confined user guest (guest.act action) := by
  cases action with
  | create shell named => exact concerns ▸ create shell
  | join named => exact concerns ▸ changeLogin fun _ => rfl
  | leave named => exact concerns ▸ changeLogin fun _ => rfl
  | lock named => exact concerns ▸ changeLogin fun _ => rfl
  | setShell shell named => exact concerns ▸ changeLogin fun _ => rfl
  | remove path => exact setFile concerns _
  | place mode staging path => exact setFile concerns _
  | own owner path => exact setFile concerns _
  | restrict mode path => exact setFile concerns _
  | other => exact refl guest

end Confined

section Paths

theorem last_part {front front' name name' : List Char} (whole : '/' ∉ name)
    (whole' : '/' ∉ name') (same : front ++ '/' :: name = front' ++ '/' :: name') :
    name = name' := by
  rcases List.append_eq_append_iff.mp same with ⟨more, -, rest⟩ | ⟨more, -, rest⟩
  · cases more with
    | nil => exact (List.cons.inj rest).2
    | cons c more => exact absurd ((List.cons.inj rest).2 ▸ by simp) whole
  · cases more with
    | nil => exact (List.cons.inj rest).2.symm
    | cons c more => exact absurd ((List.cons.inj rest).2 ▸ by simp) whole'

theorem sudoersFile_toList (user : String) :
    (sudoersFile user).toList = "/etc/sudoers.d".toList ++ '/' :: ("90-".toList ++ user.toList) := by
  have text : sudoersFile user = "/etc/sudoers.d/90-" ++ user := rfl
  simp [text]

theorem stagingPath_toList (random : List UInt8) :
    (stagingPath random).toList = "/tmp".toList ++ '/' :: ("vmdeploy-".toList ++ (hex random).toList) := by
  simp [stagingPath]

theorem keysPath_toList (login : Login) :
    login.keysPath.toList = (login.home.toList ++ "/.ssh".toList) ++ '/' :: "authorized_keys".toList := by
  have text : login.keysPath = login.home ++ "/.ssh/authorized_keys" := rfl
  simp [text]

theorem whole_hex (random : List UInt8) : '/' ∉ (hex random).toList :=
  fun slash => hex_forall (P := fun c => c ≠ '/') (by decide) random _ slash rfl

theorem sudoersFile_ne_staging (user : String) (random : List UInt8) :
    sudoersFile user ≠ stagingPath random := by
  intro same
  have texts := congrArg String.toList same
  rw [sudoersFile_toList, stagingPath_toList] at texts
  simp at texts

theorem keysPath_ne_sudoers (login : Login) {user : String} (whole : '/' ∉ user.toList) :
    login.keysPath ≠ sudoersFile user := by
  intro same
  have texts := congrArg String.toList same
  rw [keysPath_toList, sudoersFile_toList] at texts
  have names := last_part (by decide) (by simp [whole]) texts
  simp at names

theorem keysPath_ne_staging (login : Login) (random : List UInt8) :
    login.keysPath ≠ stagingPath random := by
  intro same
  have texts := congrArg String.toList same
  rw [keysPath_toList, stagingPath_toList] at texts
  have names := last_part (by decide) (by simp [whole_hex]) texts
  simp at names

theorem home_ne {homes user other : String} (whole : '/' ∉ user.toList)
    (whole' : '/' ∉ other.toList) (differs : user ≠ other) :
    s!"{homes}/{user}" ≠ s!"/home/{other}" := by
  intro same
  have text : s!"{homes}/{user}" = homes ++ "/" ++ user := rfl
  have text' : s!"/home/{other}" = "/home/" ++ other := rfl
  have texts := congrArg String.toList same
  rw [text, text'] at texts
  have parts : homes.toList ++ '/' :: user.toList = "/home".toList ++ '/' :: other.toList := by
    simpa using texts
  exact differs (String.toList_injective (last_part whole whole' parts))

end Paths

/-- The keys of an account are not looked for where those of another are written. -/
def Apart (access : Access) (other : String) : Prop :=
  ∀ login ∈ access.login, login.keysPath ≠ authorizedKeys other

section Accounts

variable {user other : String} {before after : Template}

-- What concerns one account leaves the access of another one as it was.
theorem Confined.access (confined : Confined other before after) (differs : user ≠ other)
    (whole : '/' ∉ other.toList) (apart : Apart (before.access user) other) :
    after.access user = before.access user := by
  have logins := confined.logins user differs
  have rule : after.files (sudoersFile user) = before.files (sudoersFile user) := by
    apply confined.files
    rintro (keys | rules | ⟨random, staged⟩)
    · exact sudoersFile_ne user other keys
    · have texts := congrArg String.toList rules
      rw [sudoersFile_toList, sudoersFile_toList] at texts
      exact differs (String.toList_injective (by simpa using texts))
    · exact sudoersFile_ne_staging user random staged
  have keys : ∀ login ∈ before.logins user, after.files login.keysPath = before.files login.keysPath := by
    intro login here
    apply confined.files
    rintro (keys | rules | ⟨random, staged⟩)
    · exact apart login here keys
    · exact keysPath_ne_sudoers login whole rules
    · exact keysPath_ne_staging login random staged
  unfold Template.access
  rw [logins, rule]
  cases known : before.logins user with
  | none => rfl
  | some login => simp only [Option.bind_some, keys login known]

-- An account keeps its home, and a new one has its own.
theorem Confined.apart (confined : Confined user before after) (whole : '/' ∉ user.toList)
    (whole' : '/' ∉ other.toList) (differs : user ≠ other)
    (apart : Apart (before.access user) other) : Apart (after.access user) other := by
  intro login here same
  rcases confined.home login here with ⟨homes, made⟩ | ⟨old, found, kept⟩
  · have text : login.keysPath = login.home ++ "/.ssh/authorized_keys" := rfl
    have text' : authorizedKeys other = s!"/home/{other}" ++ ("/.ssh" ++ "/authorized_keys") :=
      String.append_assoc
    rw [text, text', made] at same
    exact home_ne whole whole' differs ((String.append_left_inj _).mp same)
  · refine apart old found ?_
    have alike : old.keysPath = login.keysPath := by rw [Login.keysPath, Login.keysPath, kept]
    exact alike.trans same

end Accounts

def RequestConcerns (user : String) : RemoteOp → Prop
  | .exec script _ _ => ∀ command ∈ script.line.commands, (actionOf command).Concerns user
  | .sftpWrite path _ => ∃ random, path = stagingPath random
  | _ => True

def SetupConcerns (user : String) : setupSignature.Op → Prop :=
  Sum.elim (Sum.elim (RequestConcerns user) fun _ => True) fun _ => True

section Requests

variable {guards : Guards} {env : Option String} {user : String} {site : Site}

theorem confined_ran {x : TemplateChoice} {stdin : Option String} {script : Script}
    (concerns : ∀ command ∈ script.line.commands, (actionOf command).Concerns user) :
    Confined user site.guest (site.ran guards x stdin script).world := by
  have opens : ∀ who, ∀ command ∈ script.line.commands, ∀ guest,
      Confined user site.guest guest →
        Confined user site.guest (x.perform (.opens who command) guest).2 :=
    fun _ _ _ _ here => here
  have runs : ∀ who, ∀ command ∈ script.line.commands, ∀ guest,
      Confined user site.guest guest →
        Confined user site.guest (x.perform (.runs who command) guest).2 := by
    intro who command member guest here
    simp only [TemplateChoice.perform]
    split
    · exact here.trans (.act (concerns command member))
    · exact here
  cases script with
  | plain line => exact line_keeps _ opens runs .user (.refl _)
  | elevated mode line => exact elevated_keeps _ opens runs _ (.refl _)

theorem confined_received {x : TemplateChoice} {account : String} {payload : Inventory.Bytes}
    (guest : Template) (random : List UInt8) :
    Confined user guest (guest.received x account (stagingPath random) payload) := by
  have own : OwnPath user (stagingPath random) := .inr (.inr ⟨random, rfl⟩)
  unfold Template.received
  split
  · exact .setFile own _
  · exact .setFile own _
  · exact .refl guest

-- One request changes the guest in the account it concerns only.
theorem confined_step (x : SetupChoice) (op : setupSignature.Op) (concerns : SetupConcerns user op) :
    Confined user site.guest (setupStep guards env x op site).2.guest := by
  rcases op with (op | op) | (op | op)
  · cases op with
    | exec script stdin seconds => exact confined_ran concerns
    | sftpWrite path payload =>
      obtain ⟨random, rfl⟩ := concerns
      exact confined_received site.guest random
    | openSftp => exact .refl _
    | sftpPut source path => exact .refl _
    | urandom count => exact .refl _
    | getenv name => exact .refl _
  · cases op with
    | connect address ssh =>
      have step : setupStep guards env x (Sum.inl (Sum.inr (.connect address ssh))) site =
          sessionStep guards x.1.2 (.connect address ssh) site := rfl
      rw [step]
      rcases sessionStep_connect x.1.2 site address ssh with ⟨fault, failed⟩ | ⟨-, opened⟩
      · rw [failed]
        exact .refl _
      · rw [opened]
        exact .refl _
    | close => exact .refl _
  · exact .refl _
  · exact .refl _

-- A program that concerns one account changes the guest in that account only, however it ends.
theorem always_confined {A : Type} {p : SetupProg A} (only : p.Only (SetupConcerns user)) :
    Always (setupStep guards env) p site (fun _ after => Confined user site.guest after.guest) :=
  always_only (fun before after => Confined user before.guest after.guest) site only
    (fun before => .refl before.guest) (fun _ _ _ => .trans)
    fun x op _ concerns => confined_step x op concerns

def SetupLimits (user : String) (kind : Inventory.FileOp → Prop) : setupSignature.Op → Prop :=
  Sum.elim (Sum.elim (RequestConcerns user) fun _ => True) (Sum.elim kind fun _ => True)

theorem concerns_of_limits {kind : Inventory.FileOp → Prop} (op : setupSignature.Op)
    (limits : SetupLimits user kind op) : SetupConcerns user op := by
  rcases op with (op | op) | op
  · exact limits
  · trivial
  · trivial

end Requests

section Programs

variable {user : String} {host : RemoteHost} {check : Bool} {timeout : Option Nat}
  {kind : Inventory.FileOp → Prop}

theorem program_commands {words : List String}
    (concerns : (actionOf (program words).head).Concerns user) :
    ∀ command ∈ (program words).commands, (actionOf command).Concerns user := by
  intro command member
  rw [List.mem_singleton.mp member]
  exact concerns

theorem run_concerns {words : List String}
    (concerns : (actionOf (program words).head).Concerns user) :
    (host.run (.plain (program words)) check timeout).Only (RequestConcerns user) :=
  run_only fun _ => program_commands concerns

theorem sudo_concerns {words : List String}
    (concerns : (actionOf (program words).head).Concerns user) :
    (host.sudo (program words) check timeout).Only (RequestConcerns user) :=
  sudo_only trivial fun _ _ _ => program_commands concerns

theorem putBytes_concerns {path : String} (own : OwnPath user path) (payload : Inventory.Bytes)
    (mode : Nat) : (host.putBytes payload path mode).Only (RequestConcerns user) := by
  refine .bind ⟨trivial, fun _ => trivial⟩ fun random => ?_
  refine .bind (.bind ⟨trivial, fun _ => trivial⟩ fun reply => ?_) fun _ => ?_
  · cases reply <;> trivial
  · refine .bind ⟨⟨random, rfl⟩, fun _ => trivial⟩ fun reply => ?_
    cases reply with
    | error exc => trivial
    | ok _ =>
      have install : (actionOf (program ["install", "-D", "-m", octal mode, stagingPath random,
          path]).head).Concerns user := own
      refine .bind (sudo_concerns install) fun _ => ?_
      exact .bind (run_concerns (.inr (.inr ⟨random, rfl⟩))) fun _ => trivial

theorem only_ofExcept {I : Signature} {A : Type} {P : I.Op → Prop} (result : Except PyError A) :
    (Prog.ofExcept result : Prog I PyError A).Only P := by
  cases result <;> trivial

theorem addMissingUser_concerns : (addMissingUser host user).Only (RequestConcerns user) := by
  refine .bind (run_concerns trivial) fun known => ?_
  split
  · trivial
  · exact .bind (sudo_concerns rfl) fun _ => trivial

theorem createAdminUser_concerns (rt : Runtime) (publicKey : String) :
    (createAdminUser rt host user publicKey).Only (RequestConcerns user) := by
  have keys : OwnPath user (authorizedKeys user) := .inl rfl
  have rules : OwnPath user (sudoersFile user) := .inr (.inl rfl)
  refine .bind addMissingUser_concerns fun _ => ?_
  refine .bind (sudo_concerns rfl) fun _ => ?_
  refine .bind (sudo_concerns trivial) fun _ => ?_
  refine .bind (only_ofExcept _) fun key => ?_
  refine .bind (putBytes_concerns keys key _) fun _ => ?_
  refine .bind (sudo_concerns keys) fun _ => ?_
  refine .bind (sudo_concerns keys) fun _ => ?_
  refine .bind (only_ofExcept _) fun rule => ?_
  refine .bind (putBytes_concerns rules rule _) fun _ => ?_
  refine .bind (sudo_concerns trivial) fun checked => ?_
  split
  · trivial
  · exact .bind (sudo_concerns rules) fun _ => trivial

theorem disable_concerns : (disableBootstrapAccount host user).Only (RequestConcerns user) := by
  refine .bind (sudo_concerns rfl) fun _ => ?_
  refine .bind (sudo_concerns rfl) fun _ => ?_
  refine .bind (sudo_concerns rfl) fun _ => ?_
  refine .bind (sudo_concerns (.inr (.inl rfl))) fun _ => ?_
  exact .bind (sudo_concerns (.inl rfl)) fun _ => trivial

theorem onGuest_limits {A : Type} {p : RemoteProg A} (only : p.Only (RequestConcerns user)) :
    (onGuest p).Only (SetupLimits user kind) :=
  Prog.only_liftLeft (Prog.only_liftLeft only)

theorem onFiles_limits {A : Type} {p : Inventory.FileProg A} (only : p.Only kind) :
    (onFiles p).Only (SetupLimits user kind) :=
  Prog.only_liftRight (Prog.only_liftLeft only)

theorem onHost_limits {A : Type} (p : VirtualBox.VBoxProg A) :
    (onHost p).Only (SetupLimits user kind) :=
  Prog.only_liftRight (Prog.only_liftRight (Prog.only_true p))

theorem connect_limits (asks : ∀ path, kind (.isFile path)) :
    (connect host).Only (SetupLimits user kind) := by
  have asked : (do orRaise (← request (.isFile host.ssh.keyPath)) : Inventory.FileProg Bool).Only kind := by
    refine ⟨asks _, fun reply => ?_⟩
    cases reply <;> trivial
  refine .bind (onFiles_limits asked) fun present => ?_
  split
  · refine ⟨trivial, fun reply => ?_⟩
    rcases reply with (exc | exc) | _ <;> trivial
  · trivial

theorem withHost_limits {A : Type} {body : RemoteProg A} (asks : ∀ path, kind (.isFile path))
    (only : body.Only (RequestConcerns user)) :
    (withHost host body).Only (SetupLimits user kind) :=
  .bind (connect_limits asks) fun _ => .ensuring (onGuest_limits only) ⟨trivial, fun _ => trivial⟩

theorem acceptsSsh_limits (asks : ∀ path, kind (.isFile path)) :
    (acceptsSsh host).Only (SetupLimits user kind) := by
  refine withHost_limits asks (.bind (run_only fun _ command member => ?_) fun _ => trivial)
  rw [List.mem_singleton.mp member]
  trivial

theorem pollSsh_limits (asks : ∀ path, kind (.isFile path))
    (timeoutSeconds deadline polls attempt : Nat) (lastError : String) :
    (pollSsh host timeoutSeconds deadline polls attempt lastError).Only (SetupLimits user kind) := by
  induction polls generalizing attempt lastError with
  | zero => trivial
  | succ polls ih =>
    refine .bind (onHost_limits _) fun now => ?_
    split
    · refine .bind (.catching (.bind (acceptsSsh_limits asks) fun _ => trivial) ?_) fun failure => ?_
      · intro error p handled
        obtain ⟨message, -, rfl⟩ := Option.map_eq_some_iff.mp handled
        trivial
      · cases failure with
        | none => trivial
        | some message => exact .bind (onHost_limits _) fun _ => ih _ _
    · trivial

theorem verify_limits (asks : ∀ path, kind (.isFile path)) :
    (verifyAdminAccess host).Only (SetupLimits user kind) := by
  refine .catching (withHost_limits asks (.bind (sudo_concerns trivial) fun _ => trivial)) ?_
  intro error p handled
  split at handled
  · cases handled
    trivial
  · cases handled

variable (rt : Runtime) (py : Inventory.Interpreter) (polls : Nat) (config : ClusterConfig)
  (basePath newUser newKeyPath : String)

/-- The procedure up to the verified user, once there is a key pair. -/
def withPublicKey (publicKey : String) : SetupProg String := do
  let _ ← onFiles (Inventory.loadOrCreateKey py config.inventory.keyFile)
  let address ← reachTemplate polls config
  let bootstrap : RemoteHost := ⟨address, config.ssh⟩
  withHost bootstrap (createAdminUser rt bootstrap newUser publicKey)
  if ← verifyAdminAccess ⟨address, newSsh config newUser newKeyPath⟩ then
    pure address
  else
    .raise (unverified config newUser)

theorem withPublicKey_limits (asks : ∀ path, kind (.isFile path))
    (key : (Inventory.loadOrCreateKey py config.inventory.keyFile).Only kind) (publicKey : String) :
    (withPublicKey rt py polls config newUser newKeyPath publicKey).Only (SetupLimits newUser kind) := by
  have reaches : (reachTemplate polls config).Only (SetupLimits newUser kind) := by
    refine .bind (onHost_limits _) fun _ => ?_
    refine .bind (onHost_limits _) fun registered => ?_
    split
    · refine .bind (onHost_limits _) fun _ => ?_
      refine .bind (onHost_limits _) fun address => ?_
      exact .bind (.bind (onHost_limits _) fun _ => pollSsh_limits asks _ _ _ _ _) fun _ => trivial
    · trivial
  refine .bind (onFiles_limits key) fun _ => ?_
  refine .bind reaches fun address => ?_
  refine .bind (withHost_limits asks (createAdminUser_concerns rt publicKey)) fun _ => ?_
  refine .bind (verify_limits asks) fun verified => ?_
  split <;> trivial

-- Up to the verified user, local files are those of the two keys.
theorem verifiedTemplate_limits (asks : ∀ path, kind (.isFile path))
    (pair : (generateSshKeypair rt newKeyPath s!"{newUser}@vmdeploy").Only kind)
    (key : (Inventory.loadOrCreateKey py config.inventory.keyFile).Only kind) :
    (verifiedTemplate rt py polls config newUser newKeyPath).Only (SetupLimits newUser kind) := by
  rw [verifiedTemplate]
  split
  · trivial
  exact .bind (onFiles_limits pair) fun publicKey =>
    withPublicKey_limits rt py polls config newUser newKeyPath asks key publicKey

-- Up to the verified user, the procedure concerns the new account.
theorem verifiedTemplate_concerns :
    (verifiedTemplate rt py polls config newUser newKeyPath).Only (SetupConcerns newUser) :=
  (verifiedTemplate_limits rt py polls config newUser newKeyPath (fun _ => trivial)
    (Prog.only_true _) (Prog.only_true _)).mono concerns_of_limits

-- From there on it concerns the bootstrap account.
theorem handOver_concerns (address : String) :
    (handOver rt config basePath newUser newKeyPath address).Only (SetupConcerns config.ssh.user) := by
  have disables {admin : RemoteHost} : (withHost admin (disableBootstrapAccount admin
      config.ssh.user)).Only (SetupLimits config.ssh.user fun _ => True) :=
    withHost_limits (fun _ => trivial) disable_concerns
  refine .bind (disables.mono concerns_of_limits) fun _ => ?_
  exact .bind ((onFiles_limits (Prog.only_true _)).mono concerns_of_limits) fun _ => trivial

end Programs

section Verification

variable (guards : Guards) (env : Option String)

/-- One of the attempts that `sudo` makes is let through. -/
def Elevates (user : String) (access : Access) : Prop :=
  guards.authorises user access .nonInteractive none = true ∨
    ∃ password, env = some password ∧ password ≠ "" ∧
      guards.authorises user access .readPassword (some (password ++ "\n")) = true

/-- With the private key, the account can log in and reach root. -/
def Enters (user : String) (privateKey : Option Inventory.Bytes) (access : Access) : Prop :=
  guards.admits user access privateKey = true ∧ Elevates guards env user access

variable {guards env} {site : Site}

-- Asking `sudo` for the user id changes nothing, and succeeds only as root.
theorem ran_id (guards : Guards) (site : Site) (x : TemplateChoice) (stdin : Option String) (mode : SudoMode) :
    let ran := site.ran guards x stdin (.elevated mode (program ["id", "-u"]))
    ran.world = site.guest ∧
      (ran.output.exitStatus = 0 → site.authorised guards mode stdin = true) := by
  intro ran
  have single : ran = if site.authorised guards mode stdin then
      launch x.perform .root (program ["id", "-u"]).head site.guest
      else ⟨refusal (program ["id", "-u"]).head, [], site.guest⟩ :=
    runElevated_single x.perform (single_program _) _ _
  rw [single]
  cases site.authorised guards mode stdin with
  | false => exact ⟨rfl, fun succeeds => absurd succeeds Nat.one_ne_zero⟩
  | true => exact ⟨ite_self _, fun _ => rfl⟩

theorem ends_reachesRoot {host : RemoteHost} :
    Always (remoteStep guards env) (reachesRoot host) site (Ends (fun _ => True) fun verified after =>
      (after.guest = site.guest ∧ after.files = site.files) ∧
        (verified = true → Elevates guards env site.account (site.guest.access site.account))) := by
  let same (s : Site) : Prop :=
    (s.guest = site.guest ∧ s.files = site.files) ∧ s.account = site.account
  have asks : Always (remoteStep guards env) (host.sudo (program ["id", "-u"]) false none) site
      (Ends (fun _ => True) fun result after => same after ∧
        (result.ok = true → Elevates guards env site.account (site.guest.access site.account))) := by
    have kept : ∀ s, same s → True := fun _ _ => trivial
    refine ends_sudo trivial kept ?_ ?_
    · intro x script
      obtain ⟨unchanged, succeeds⟩ := ran_id guards site x none .nonInteractive
      have held : same (site.sent guards x none script) := ⟨⟨unchanged, rfl⟩, rfl⟩
      exact ⟨held, held, fun ok => .inl (succeeds ((ok_of_iff _ _).mp ok))⟩
    · rintro s x password ⟨⟨guest, files⟩, account⟩ known visible script
      obtain ⟨unchanged, succeeds⟩ :=
        ran_id guards s x (some (password ++ "\n")) .readPassword
      have held : same (s.sent guards x (some (password ++ "\n")) script) :=
        ⟨⟨unchanged.trans guest, files⟩, account⟩
      refine ⟨held, held, fun ok => ?_⟩
      have let_in := succeeds ((ok_of_iff _ _).mp ok)
      rw [Site.authorised, guest, account] at let_in
      exact .inr ⟨password, known, visible, let_in⟩
  refine ends_bind asks ?_
  rintro result after ⟨⟨unchanged, -⟩, elevates⟩
  refine always_done ⟨unchanged, fun verified => elevates ?_⟩
  exact (Bool.and_eq_true_iff.mp verified).1

-- An account that passes the verification can log in and reach root.
theorem ends_verify {admin : RemoteHost} :
    Always (setupStep guards env) (verifyAdminAccess admin) site (Ends (fun _ => True)
      fun verified after => verified = true → Enters guards env admin.ssh.user
        (after.files.content admin.ssh.keyPath) (after.guest.access admin.ssh.user)) := by
  refine ends_catching (ends_withHost trivial (fun _ _ _ => trivial) fun admitted => ?_) ?_
  · refine Always.mono ends_reachesRoot ?_
    intro outcome after ended
    cases outcome with
    | returned verified =>
      obtain ⟨⟨guest, files⟩, elevates⟩ := ended
      intro passed
      rw [guest, files]
      exact ⟨admitted, elevates passed⟩
    | raised error => trivial
    | stopped => trivial
  · intro error after _ p handled
    split at handled
    · cases handled
      exact always_done fun passed => absurd passed (by decide)
    · cases handled

variable (rt : Runtime) (py : Inventory.Interpreter) (polls : Nat) (config : ClusterConfig)
  (basePath newUser newKeyPath : String)

theorem ends_verifiedTemplate :
    Always (setupStep guards env) (verifiedTemplate rt py polls config newUser newKeyPath) site
      (Ends (fun _ => True) fun _ mid =>
        Enters guards env newUser (mid.files.content newKeyPath) (mid.guest.access newUser)) := by
  rw [verifiedTemplate]
  split
  · exact always_raise trivial
  refine ends_bind ends_any fun publicKey _ _ => ?_
  refine ends_bind ends_any fun _ _ _ => ?_
  refine ends_bind ends_any fun address _ _ => ?_
  refine ends_bind ends_any fun _ _ _ => ?_
  refine ends_bind ends_verify fun verified mid enters => ?_
  split
  · next passed => exact always_done (enters passed)
  · exact always_raise trivial

def HandedOver (guards : Guards) (env : Option String) (start : Site) (script : List SetupChoice)
    (after : Site) : Prop :=
  ∃ passed rest address mid, script = passed ++ rest ∧
    (verifiedTemplate rt py polls config newUser newKeyPath).eval (setupStep guards env) start passed =
      (.returned address, mid) ∧
    after.guest.access newUser = mid.guest.access newUser ∧
    Enters guards env newUser (mid.files.content newKeyPath) (after.guest.access newUser)

/-- Wherever a run stops, the access of the bootstrap account is as it was, or the new user has
passed the verification and still has its access; one of the two can log in and reach root. -/
theorem lockout_impossible (start : Site) (key : Option Inventory.Bytes)
    (differs : newUser ≠ config.ssh.user) (wholeNew : '/' ∉ newUser.toList)
    (wholeBoot : '/' ∉ config.ssh.user.toList)
    (apartBoot : Apart (start.guest.access config.ssh.user) newUser)
    (apartNew : Apart (start.guest.access newUser) config.ssh.user)
    (enters : Enters guards env config.ssh.user key (start.guest.access config.ssh.user))
    (script : List SetupChoice) :
    let after := ((runSetup rt py polls config basePath newUser newKeyPath).eval
      (setupStep guards env) start script).2
    after.guest.access config.ssh.user = start.guest.access config.ssh.user ∧
        Enters guards env config.ssh.user key (after.guest.access config.ssh.user) ∨
      HandedOver rt py polls config newUser newKeyPath guards env start script after := by
  intro after
  have prepares : Always (setupStep guards env)
      (verifiedTemplate rt py polls config newUser newKeyPath) start
      (fun _ mid => Confined newUser start.guest mid.guest) :=
    always_confined (verifiedTemplate_concerns rt py polls config newUser newKeyPath)
  have verifies : Always (setupStep guards env)
      (verifiedTemplate rt py polls config newUser newKeyPath) start (Ends (fun _ => True) fun _ mid =>
        Enters guards env newUser (mid.files.content newKeyPath) (mid.guest.access newUser)) :=
    ends_verifiedTemplate rt py polls config newUser newKeyPath
  rcases eval_bind (verifiedTemplate rt py polls config newUser newKeyPath)
      (handOver rt config basePath newUser newKeyPath) start script with
    ⟨address, mid, passed, rest, split, returned, same⟩ | ended
  · have prepared := prepares passed
    have verified := verifies passed
    rw [returned] at prepared verified
    have handed : Confined config.ssh.user mid.guest after.guest := by
      have last : after = _ := congrArg Prod.snd same
      rw [last]
      exact always_confined (handOver_concerns rt config basePath newUser newKeyPath address) rest
    have kept := handed.access differs wholeBoot (prepared.apart wholeNew wholeBoot differs apartNew)
    exact .inr ⟨passed, rest, address, mid, split, returned, kept, kept ▸ verified⟩
  · have prepared := prepares script
    have last : after = _ := ended
    rw [← last] at prepared
    have kept := prepared.access differs.symm wholeNew apartBoot
    exact .inl ⟨kept, kept ▸ enters⟩

end Verification

theorem lockout_impossible_stock :
    let after := setupWithFailingLock.2
    after.guest.access "vmadmin" = stockSite.guest.access "vmadmin" ∧
        Enters openGuards (some "secret") "vmadmin" (some []) (after.guest.access "vmadmin") ∨
      HandedOver exampleRuntime exampleInterpreter 24 Provision.exampleTeardown "operator"
        "keys/operator_key" openGuards (some "secret") stockSite
        (List.replicate 120 ((failingLock, none), (meeting none, runningTemplate))) after := by
  have apartBoot : Apart (stockSite.guest.access "vmadmin") "operator" := by
    intro login here
    cases here
    decide
  have apartNew : Apart (stockSite.guest.access "operator") "vmadmin" := by
    intro login here
    cases here
  exact lockout_impossible exampleRuntime exampleInterpreter 24 Provision.exampleTeardown
    "config/cluster.toml" "operator" "keys/operator_key" stockSite (some []) (by decide) (by decide)
    (by decide) apartBoot apartNew ⟨rfl, .inl rfl⟩ _

def stockKeys : Inventory.Bytes :=
  Utf8.encode "ssh-ed25519 AAAA\n".toList

/-- A key in the home and a login shell let an account in; its rule lets it use `sudo`. -/
def keyGuards : Guards where
  admits := fun _ access key =>
    key.isSome && access.login.any (fun login => login.shell == "/bin/bash") &&
      access.keys.any fun file => file.content == stockKeys
  authorises := fun _ access _ _ => access.sudoers.isSome

/-- The operator's account is there already, with the home and the key pair of the bootstrap one. -/
def sharedSite : Site where
  guest :=
    { homes := "/home"
      logins := fun user =>
        if user = "vmadmin" then some ⟨false, "/bin/bash", true, "/home/vmadmin"⟩
        else if user = "operator" then some ⟨true, "/bin/bash", false, "/home/vmadmin"⟩
        else none
      files := fun path =>
        if path = authorizedKeys "vmadmin" then some ⟨stockKeys, "vmadmin:vmadmin", "600"⟩
        else if path = sudoersFile "vmadmin" then some ⟨[], "root:root", "440"⟩
        else none }
  files :=
    { content := fun path =>
        if path = "keys/vm_key" then some []
        else if path = "keys/vm_key.pub" then some stockKeys
        else none
      warnings := [] }
  account := ""
  attempts := []

def succeeding : TemplateChoice :=
  { failingLock with output := fun _ => ⟨0, "0", ""⟩ }

def sharedScript : List SetupChoice :=
  List.replicate 120 ((succeeding, none), (meeting none, runningTemplate))

def setupWithSharedHome : Outcome PyError Unit × Site :=
  (runSetup exampleRuntime exampleInterpreter 24 Provision.exampleTeardown "config/cluster.toml"
    "operator" "keys/vm_key").eval (setupStep keyGuards none) sharedSite sharedScript

theorem shared_home_locks_out :
    Enters keyGuards none "vmadmin" (some []) (sharedSite.guest.access "vmadmin") ∧
      setupWithSharedHome.2.guest.access "vmadmin" ≠ sharedSite.guest.access "vmadmin" ∧
      ¬ HandedOver exampleRuntime exampleInterpreter 24 Provision.exampleTeardown "operator"
        "keys/vm_key" keyGuards none sharedSite sharedScript setupWithSharedHome.2 ∧
      ∀ user ∈ ["vmadmin", "operator"], ∀ key,
        ¬ Enters keyGuards none user key (setupWithSharedHome.2.guest.access user) := by
  have gone : ∀ user ∈ ["vmadmin", "operator"],
      (setupWithSharedHome.2.guest.access user).keys = none := by decide +kernel
  have locked : ∀ user ∈ ["vmadmin", "operator"], ∀ key,
      ¬ Enters keyGuards none user key (setupWithSharedHome.2.guest.access user) := by
    rintro user known key ⟨admitted, -⟩
    simp [keyGuards, gone user known] at admitted
  refine ⟨⟨by decide, .inl rfl⟩, by decide +kernel, ?_, locked⟩
  rintro ⟨passed, rest, address, mid, -, -, -, enters⟩
  exact locked "operator" (by simp) _ enters

end VmDeploy.Setup
