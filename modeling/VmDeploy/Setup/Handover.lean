import VmDeploy.Effects.Granted
import VmDeploy.Setup.Lockout
import VmDeploy.Setup.Overlay

/-! What a command loads after a setup, and whether that identity is let in. -/

set_option autoImplicit false

open Effects Python

namespace VmDeploy.Setup

open Config
open Remote (RemoteHost)
open Inventory (FileChoice FileOp FileProg LocalFiles localStep orInventoryError orRaise request)

def FileOp.Spares (path : String) : FileOp → Prop
  | .writeBytes other _ => other ≠ path
  | _ => True

section Files

variable {rt : Runtime} {py : Inventory.Interpreter} {path privatePath keyFile : String}

theorem localStep_spares (x : FileChoice) (op : FileOp) (files : LocalFiles)
    (spares : FileOp.Spares path op) : (localStep x op files).2.content path = files.content path := by
  cases op with
  | writeBytes other content => exact Inventory.written_elsewhere x content (Ne.symm spares)
  | _ => rfl

theorem always_spared {A : Type} {p : FileProg A} {files : LocalFiles}
    (only : p.Only (FileOp.Spares path)) :
    Always localStep p files (fun _ after => after.content path = files.content path) := by
  refine always_only (fun before after => after.content path = before.content path) files only
    (fun _ => rfl) ?_ fun x op files spares => localStep_spares x op files spares
  intro before middle after first second
  exact second.trans first

variable {A : Type} {P : FileOp → Prop} {doing : String} {reply : Except String A}

theorem only_request {op : FileOp} (meets : P op) : (request op).Only P :=
  ⟨meets, fun _ => trivial⟩

theorem only_orRaise : (orRaise reply).Only P := by
  cases reply <;> trivial

theorem only_orInventoryError : (orInventoryError doing reply).Only P := by
  cases reply <;> trivial

theorem only_orVmDeployError : (orVmDeployError doing reply).Only P := by
  cases reply <;> trivial

theorem reusesPair_spares (publicPath : String) :
    (reusesPair privatePath publicPath).Only (FileOp.Spares path) := by
  refine .bind (only_request trivial) fun _ => .bind only_orRaise fun present => ?_
  split
  · exact .bind (only_request trivial) fun _ => only_orRaise
  · trivial

theorem writePair_spares {publicPath : String} (apart : privatePath ≠ path)
    (apartPublic : publicPath ≠ path) (publicLine : String) (pem : Inventory.Bytes) :
    (writePair rt privatePath publicPath publicLine pem).Only (FileOp.Spares path) := by
  refine .bind (only_request trivial) fun _ => .bind only_orVmDeployError fun _ => ?_
  refine .bind (only_request apart) fun _ => .bind only_orVmDeployError fun _ => ?_
  split
  · exact .bind (only_request apartPublic) fun _ => only_orVmDeployError
  · exact .bind (only_request apartPublic) fun _ => .bind only_orVmDeployError fun _ => trivial

theorem generateSshKeypair_named {publicPath : String} (comment : String)
    (named : Provision.publicKeyPath privatePath = .ok publicPath) :
    generateSshKeypair rt privatePath comment = (do
      if ← reusesPair privatePath publicPath then do
        let bytes ← orRaise (← request (.readBytes publicPath))
        let text ← .ofExcept (Provision.publicKeyOf publicPath (.ok bytes))
        pure (String.ofList text)
      else do
        let seed ← request (.randomBytes 32)
        let publicLine := s!"{rt.publicText seed.val} {comment}"
        writePair rt privatePath publicPath publicLine (rt.privatePem seed.val)
        let _ ← request (.chmod privatePath 0o600)
        let _ ← request (.chmod publicPath 0o600)
        pure publicLine) := by
  rw [generateSshKeypair, named]
  rfl

-- A new key pair is written to its two paths only.
theorem generateSshKeypair_spares (comment : String) (apart : privatePath ≠ path)
    (apartPublic : Provision.publicKeyPath privatePath ≠ .ok path) :
    (generateSshKeypair rt privatePath comment).Only (FileOp.Spares path) := by
  cases named : Provision.publicKeyPath privatePath with
  | error exc =>
    -- without a public path it ends before the first request
    rw [generateSshKeypair, named]
    trivial
  | ok publicPath =>
    have other : publicPath ≠ path := by
      rintro rfl
      exact apartPublic named
    rw [generateSshKeypair_named comment named]
    refine .bind (reusesPair_spares publicPath) fun reuses => ?_
    split
    · refine .bind (only_request trivial) fun _ => .bind only_orRaise fun bytes => ?_
      exact .bind (only_ofExcept _) fun _ => trivial
    · refine .bind (only_request trivial) fun seed => ?_
      refine .bind (writePair_spares apart other _ _) fun _ => ?_
      exact .bind (only_request trivial) fun _ => .bind (only_request trivial) fun _ => trivial

def Paired (files : LocalFiles) (privatePath : String) : Prop :=
  (files.content privatePath).isSome = true ∧ ∃ publicPath,
    Provision.publicKeyPath privatePath = .ok publicPath ∧ (files.content publicPath).isSome = true

theorem ends_reusesPair {files : LocalFiles} {publicPath : String}
    (here : (files.content privatePath).isSome = true)
    (there : (files.content publicPath).isSome = true) :
    Always localStep (reusesPair privatePath publicPath) files
      (Ends (fun after => after = files) fun reuses after => reuses = true ∧ after = files) := by
  have asks (next : String) (present : (files.content next).isSome = true) :
      Always localStep ((request (.isFile next)).bind orRaise) files
        (Ends (fun after => after = files) fun answer after => answer = true ∧ after = files) := by
    refine always_call rfl fun x => ?_
    have asked : localStep x (.isFile next) files = (x.reply (files.content next).isSome, files) := rfl
    rw [asked, present]
    cases fails : x.fails with
    | some message =>
      rw [FileChoice.reply, fails]
      exact always_raise rfl
    | none =>
      rw [FileChoice.reply, fails]
      exact always_done ⟨rfl, rfl⟩
  have parts : reusesPair privatePath publicPath =
      ((request (.isFile privatePath)).bind orRaise).bind fun present =>
        if present then (request (.isFile publicPath)).bind orRaise else pure false := rfl
  rw [parts]
  refine ends_bind (asks privatePath here) ?_
  rintro _ _ ⟨rfl, rfl⟩
  exact asks publicPath there

-- A key pair that is there is used again, and nothing is written.
theorem always_paired {files : LocalFiles} (comment : String) (paired : Paired files privatePath) :
    Always localStep (generateSshKeypair rt privatePath comment) files
      (fun _ after => after.content path = files.content path) := by
  obtain ⟨here, publicPath, named, there⟩ := paired
  rw [generateSshKeypair_named comment named]
  refine always_bind (Always.mono (ends_reusesPair here there) ?_)
  intro outcome after ended
  cases outcome with
  | raised error => exact congrArg (LocalFiles.content · path) ended
  | stopped => exact congrArg (LocalFiles.content · path) ended
  | returned reuses =>
    obtain ⟨rfl, rfl⟩ := ended
    refine always_spared ?_
    refine .bind (only_request trivial) fun _ => .bind only_orRaise fun bytes => ?_
    exact .bind (only_ofExcept _) fun _ => trivial

-- The inventory key is written to its path only.
theorem loadOrCreateKey_spares (apart : keyFile ≠ path) :
    (Inventory.loadOrCreateKey py keyFile).Only (FileOp.Spares path) := by
  have writes (key : Inventory.Bytes) :
      (Inventory.writeKeyFile key keyFile).Only (FileOp.Spares path) := by
    unfold Inventory.writeKeyFile
    split
    · trivial
    · refine .bind (only_request trivial) fun _ => .bind only_orInventoryError fun _ => ?_
      refine .bind (only_request apart) fun _ => .bind only_orInventoryError fun _ => ?_
      exact .bind (only_request trivial) fun _ => trivial
  refine .bind (only_request trivial) fun _ => .bind only_orRaise fun present => ?_
  split
  · refine .bind (only_request trivial) fun _ => .bind only_orInventoryError fun _ => ?_
    exact only_ofExcept _
  · exact .bind (only_request trivial) fun key => .bind (writes key.val) fun _ => trivial

end Files

section Sites

variable {guards : Guards} {env : Option String} {site : Site} {path user : String}

theorem setupStep_spares (x : SetupChoice) (op : setupSignature.Op)
    (limits : SetupLimits user (FileOp.Spares path) op) :
    (setupStep guards env x op site).2.files.content path = site.files.content path := by
  rcases op with (op | op) | (op | op)
  · cases op <;> rfl
  · cases op with
    | connect address ssh =>
      have step : setupStep guards env x (Sum.inl (Sum.inr (.connect address ssh))) site =
          sessionStep guards x.1.2 (.connect address ssh) site := rfl
      rw [step]
      rcases sessionStep_connect x.1.2 site address ssh with ⟨fault, failed⟩ | ⟨-, opened⟩
      · rw [failed]
      · rw [opened]
    | close => rfl
  · exact localStep_spares x.2.1 op site.files limits
  · rfl

theorem always_spares {A : Type} {p : SetupProg A}
    (only : p.Only (SetupLimits user (FileOp.Spares path))) :
    Always (setupStep guards env) p site
      (fun _ after => after.files.content path = site.files.content path) := by
  refine always_only (fun before after => after.files.content path = before.files.content path)
    site only (fun _ => rfl) ?_ fun x op _ limits => setupStep_spares x op limits
  intro before middle after first second
  exact second.trans first

end Sites

section Handover

variable {rt : Runtime} {py : Inventory.Interpreter} {polls : Nat} {platform : Platform}
  {basePath newUser newKeyPath : String} {base : Toml.Table} {config : ClusterConfig}
  {mapping : Mapping} {ssh : Toml.Table} {guards : Guards} {env : Option String}

/-- A command loads the configuration, and its identity can log in and reach root. -/
structure Identified (rt : Runtime) (platform : Platform) (basePath : String) (base : Source)
    (guards : Guards) (env : Option String) (config : ClusterConfig) (site : Site) : Prop where
  loaded : effectiveConfig rt platform basePath base site.files = .ok config
  enters : Enters guards env config.ssh.user (site.files.content config.ssh.keyPath)
    (site.guest.access config.ssh.user)

/-- Two accounts that share no path on the guest. -/
structure Strangers (guest : Template) (first second : String) : Prop where
  differs : first ≠ second
  wholeFirst : '/' ∉ first.toList
  wholeSecond : '/' ∉ second.toList
  apartFirst : Apart (guest.access first) second
  apartSecond : Apart (guest.access second) first

/-- Neither key is written to the path. -/
structure Unwritten (config : ClusterConfig) (newKeyPath path : String) : Prop where
  privateKey : newKeyPath ≠ path
  publicKey : Provision.publicKeyPath newKeyPath ≠ .ok path
  keyFile : config.inventory.keyFile ≠ path

theorem effectiveConfig_same {source : Source} {files other : LocalFiles}
    (same : other.content (localOverlayPath basePath) = files.content (localOverlayPath basePath)) :
    effectiveConfig rt platform basePath source other =
      effectiveConfig rt platform basePath source files := by
  rw [effectiveConfig, same, effectiveConfig]

theorem Overlaid.same {files other : LocalFiles} {document : Toml.Table}
    (overlaid : Overlaid rt basePath files document)
    (same : other.content (localOverlayPath basePath) = files.content (localOverlayPath basePath)) :
    Overlaid rt basePath other document := by
  cases overlaid with
  | absent none => exact .absent (same.trans none)
  | present there decoded loads => exact .present (same.trans there) decoded loads

-- Taking the old account apart changes no local file.
theorem ends_disabled_files {site : Site} {other : Site → Prop} (admin : RemoteHost) (user : String)
    (keeps : ∀ after : Site, (∀ path, after.files.content path = site.files.content path) → other after) :
    Always (setupStep guards env) (withHost admin (disableBootstrapAccount admin user)) site
      (Ends other fun _ after => ∀ path, after.files.content path = site.files.content path) := by
  have kept : Always (setupStep guards env)
      (withHost admin (disableBootstrapAccount admin user)) site
      (fun _ after => ∀ path, after.files.content path = site.files.content path) :=
    fun script path => always_spares (withHost_limits (fun _ => trivial) disable_concerns) script
  refine Always.mono kept ?_
  intro outcome after same
  cases outcome with
  | returned value => exact same
  | raised error => exact keeps after same
  | stopped => exact keeps after same

-- Handing over changes one local file, the overlay, which then names the new identity.
theorem ends_handOver_files {site : Site} (address : String)
    (literal : Literal platform newUser newKeyPath)
    (overlaid : Overlaid rt basePath site.files mapping.data) (found : SshTable mapping ssh)
    (rereads : mapping.Rereads rt)
    (loaded : effectiveConfig rt platform basePath (.parsed base) site.files = .ok config) :
    Always (setupStep guards env) (handOver rt config basePath newUser newKeyPath address) site
      (Ends (fun after => Beside basePath site.files after.files) fun _ after =>
        Beside basePath site.files after.files ∧
          effectiveConfig rt platform basePath (.parsed base) after.files =
            .ok (renamed platform config newUser newKeyPath)) := by
  refine ends_bind (ends_disabled_files _ config.ssh.user (fun _ same path _ => same path)) ?_
  intro _ disabled same
  have names := ends_writeLocalOverlay (overlaid.same (same _)) (ends_saved literal
    (overlaid.same (same _)) found rereads ((effectiveConfig_same (same _)).trans loaded))
  have writes : Always (setupStep guards env)
      (onFiles (writeLocalOverlay rt basePath newUser newKeyPath)) disabled _ :=
    always_liftRight (always_liftLeft (always_focus Site.files
      (fun site files => { site with files := files }) (fun _ _ => rfl) (fun _ => rfl)
      (fun _ _ _ => rfl) names))
  have beside {files : LocalFiles} (changed : Beside basePath disabled.files files) :
      Beside basePath site.files files :=
    fun path apart => (changed path apart).trans (same path)
  have written : Always (setupStep guards env)
      (onFiles (writeLocalOverlay rt basePath newUser newKeyPath)) disabled
      (Ends (fun after => Beside basePath site.files after.files) fun _ after =>
        Beside basePath site.files after.files ∧
          effectiveConfig rt platform basePath (.parsed base) after.files =
            .ok (renamed platform config newUser newKeyPath)) := by
    refine Always.mono writes ?_
    rintro outcome after ⟨files, rfl, ended⟩
    cases outcome with
    | returned overlay => exact ⟨beside ended.2.1, ended.2.2⟩
    | raised error => exact beside ended
    | stopped => exact beside ended
  exact ends_bind written fun _ _ ended => always_done ended

section Granted

variable {W X : Type} {step : Step Remote.remoteSignature W X} {host : RemoteHost} {w : W}
  {site : Site}

/-- The transport holds, and the environment has a password where it is asked for one. -/
def remoteGrants : Grants Remote.remoteSignature
  | .exec _ _ _, reply => reply.isOk
  | .openSftp, reply => reply.isOk
  | .sftpWrite _ _, reply => reply.isOk
  | .sftpPut _ _, reply => reply.isOk
  | .urandom _, _ => true
  | .getenv _, reply => reply.any (· ≠ "")

def sessionGrants : Grants sessionSignature
  | .connect _ _, reply => reply.isOk
  | .close, _ => true

/-- No operation fails, and the private key is there. -/
def fileGrants (keyPath : String) : Grants Inventory.fileSignature
  | .isFile path, reply => reply.toOption.any fun there => there || path != keyPath
  | .readBytes _, reply => reply.isOk
  | .mkdirParents _, reply => reply.isOk
  | .writeBytes _ _, reply => reply.isOk
  | .chmod _ _, reply => reply.isOk
  | .utcTimestamp, _ => true
  | .randomBytes _, _ => true
  | .warn _, _ => true

def setupGrants (keyPath : String) : Grants setupSignature :=
  (remoteGrants.sum sessionGrants).sum ((fileGrants keyPath).sum fun _ _ => true)

theorem delivers_exec {A : Type} {post : A → W → Prop} {script : Shell.Script}
    {stdin : Option String} {timeout : Nat} {rest : Except String Shell.Output → Remote.RemoteProg A}
    (next : ∀ output w', Delivers step remoteGrants (rest (.ok output)) w' post) :
    Delivers step remoteGrants (.call (.exec script stdin timeout) rest) w post := by
  refine delivers_call fun x granted => ?_
  generalize (step x (.exec script stdin timeout) w).1 = reply at granted ⊢
  cases reply with
  | error exc => cases granted
  | ok output => exact next output _

theorem delivers_sudoPassword : Delivers step remoteGrants Remote.sudoPassword w fun _ _ => True := by
  refine delivers_call fun x granted => ?_
  generalize (step x _ w).1 = reply at granted ⊢
  cases reply with
  | none => cases granted
  | some password =>
    have visible : password ≠ "" := of_decide_eq_true granted
    change Delivers step remoteGrants (if password ≠ "" then pure password else _) _ _
    rw [if_pos visible]
    exact delivers_done trivial

theorem delivers_sudo (line : Shell.Line) (timeout : Option Nat) :
    Delivers step remoteGrants (host.sudo line false timeout) w fun _ _ => True := by
  have first : Delivers step remoteGrants (host.run (.elevated .nonInteractive line) false timeout) w
      fun _ _ => True :=
    delivers_exec fun _ _ => delivers_done trivial
  refine delivers_bind first fun result w' _ => ?_
  split
  · exact delivers_done trivial
  · refine delivers_bind delivers_sudoPassword fun password w' _ => ?_
    exact delivers_exec fun _ _ => delivers_done trivial

theorem delivers_disable (username : String) :
    Delivers step remoteGrants (disableBootstrapAccount host username) w fun _ _ => True :=
  delivers_bind (delivers_sudo _ _) fun _ _ _ =>
    delivers_bind (delivers_sudo _ _) fun _ _ _ =>
      delivers_bind (delivers_sudo _ _) fun _ _ _ =>
        delivers_bind (delivers_sudo _ _) fun _ _ _ =>
          delivers_bind (delivers_sudo _ _) fun _ _ _ => delivers_done trivial

theorem delivers_files {A : Type} {p : FileProg A} {post : A → LocalFiles → Prop} {keyPath : String}
    (delivers : Delivers localStep (fileGrants keyPath) p site.files post) :
    Delivers (setupStep guards env) (setupGrants keyPath) (onFiles p) site
      fun value after => post value after.files :=
  delivers_liftRight (delivers_liftLeft (delivers_focus Site.files
    (fun site files => { site with files := files }) (fun _ _ => rfl) delivers))

theorem delivers_connect :
    Delivers (setupStep guards env) (setupGrants host.ssh.keyPath) (connect host) site
      fun _ _ => True := by
  have asks : Delivers localStep (fileGrants host.ssh.keyPath)
      ((request (.isFile host.ssh.keyPath)).bind orRaise) site.files fun there _ => there = true := by
    refine delivers_call fun x granted => ?_
    generalize (localStep x _ site.files).1 = reply at granted ⊢
    cases reply with
    | error exc => cases granted
    | ok there =>
      have present : there = true := by simpa [fileGrants, Except.toOption] using granted
      exact delivers_done present
  refine delivers_bind (delivers_files asks) ?_
  rintro _ opened rfl
  refine delivers_call fun x granted => ?_
  have answered : sessionGrants (.connect host.address host.ssh)
      (sessionStep guards x.1.2 (.connect host.address host.ssh) opened).1 = true := granted
  have stepped : setupStep guards env x (Sum.inl (Sum.inr (.connect host.address host.ssh))) opened =
      sessionStep guards x.1.2 (.connect host.address host.ssh) opened := rfl
  rw [stepped]
  generalize (sessionStep guards x.1.2 (.connect host.address host.ssh) opened).1 = reply at answered ⊢
  cases reply with
  | error fault => cases answered
  | ok _ => exact delivers_done trivial

theorem delivers_withHost (host : RemoteHost) {body : Remote.RemoteProg Unit}
    (delivers : ∀ site, Delivers (remoteStep guards env) remoteGrants body site fun _ _ => True) :
    Delivers (setupStep guards env) (setupGrants host.ssh.keyPath) (withHost host body) site
      fun _ _ => True := by
  refine delivers_bind delivers_connect fun _ opened _ => ?_
  refine delivers_ensuring (delivers_liftLeft (delivers_liftLeft (delivers opened))) ?_
  exact fun _ _ _ => delivers_call fun _ _ => delivers_done trivial

theorem delivers_writeLocalOverlay {files : LocalFiles} {document ssh : Toml.Table}
    {text : Python.Text} (username keyPath : String) (overlaid : Overlaid rt basePath files document)
    (settings : sshTable rt document = .ok ssh)
    (emitted : emission rt (withIdentity document ssh username keyPath) = some text) :
    Delivers localStep (fileGrants newKeyPath) (writeLocalOverlay rt basePath username keyPath) files
      fun _ _ => True := by
  have saves : Delivers localStep (fileGrants newKeyPath)
      (saveIdentity rt basePath username keyPath document) files fun _ _ => True := by
    rw [saveIdentity, settings]
    simp only [Prog.ofExcept, Prog.bind_eq, Prog.bind, emitted]
    refine delivers_call fun x granted => ?_
    generalize (localStep x _ files).1 = reply at granted ⊢
    cases reply with
    | error exc => cases granted
    | ok _ => exact delivers_done trivial
  refine delivers_call fun x granted => ?_
  have asked : localStep x (.isFile (localOverlayPath basePath)) files =
      (x.reply (files.content (localOverlayPath basePath)).isSome, files) := rfl
  rw [asked] at granted ⊢
  cases fails : x.fails with
  | some message =>
    rw [FileChoice.reply, fails] at granted
    cases granted
  | none =>
    rw [FileChoice.reply, fails]
    cases overlaid with
    | absent none =>
      rw [none]
      exact saves
    | @present bytes text document there decoded read =>
      have alike := Toml.loads_universalNewlines read
      rw [there]
      refine delivers_call fun y granted => ?_
      have opened : localStep y (.readBytes (localOverlayPath basePath)) files =
          (y.reply bytes, files) := by
        rw [localStep, there]
      rw [opened] at granted ⊢
      cases fails : y.fails with
      | some message =>
        rw [FileChoice.reply, fails] at granted
        cases granted
      | none =>
        rw [FileChoice.reply, fails]
        simp only [orVmDeployError, Prog.bind_eq, Prog.bind, decoded, alike]
        exact saves

-- From the verified user on nothing fails by itself.
theorem delivers_handOver {mid : Site} (address : String) (literal : Literal platform newUser newKeyPath)
    (overlaid : Overlaid rt basePath mid.files mapping.data) (found : SshTable mapping ssh)
    (rereads : mapping.Rereads rt) :
    Delivers (setupStep guards env) (setupGrants newKeyPath)
      (handOver rt config basePath newUser newKeyPath address) mid fun _ _ => True := by
  have disables (admin : RemoteHost) : Delivers (setupStep guards env)
      (setupGrants admin.ssh.keyPath)
      (withHost admin (disableBootstrapAccount admin config.ssh.user)) mid
      fun _ after => ∀ path, after.files.content path = mid.files.content path :=
    (delivers_withHost admin fun _ => delivers_disable config.ssh.user).ends
      (ends_disabled_files admin config.ssh.user fun _ _ => trivial)
  refine delivers_bind (disables ⟨address, newSsh config newUser newKeyPath⟩) ?_
  intro _ disabled same
  have emitted : emission rt (withIdentity mapping.data ssh newUser newKeyPath) =
      some (emitToml rt (withIdentity mapping.data ssh newUser newKeyPath)).toList :=
    emission_rereads (rereads_named found rereads literal.plainAccount literal.plainPath)
  have writes : Delivers (setupStep guards env) (setupGrants newKeyPath)
      (onFiles (writeLocalOverlay rt basePath newUser newKeyPath)) disabled fun _ _ => True :=
    delivers_files (delivers_writeLocalOverlay newUser newKeyPath (overlaid.same (same _))
      (sshTable_of found) emitted)
  exact delivers_bind writes fun _ _ _ => delivers_done trivial

end Granted

/-- The path is kept by the making of the key pair: neither key is written to it, or both are there. -/
def PairSpares (files : LocalFiles) (newKeyPath path : String) : Prop :=
  Paired files newKeyPath ∨ newKeyPath ≠ path ∧ Provision.publicKeyPath newKeyPath ≠ .ok path

theorem Unwritten.pairSpares {path : String} (unwritten : Unwritten config newKeyPath path)
    (files : LocalFiles) : PairSpares files newKeyPath path :=
  .inr ⟨unwritten.privateKey, unwritten.publicKey⟩

-- Up to the verified user, a file that neither key is written to is as it was.
theorem always_verified_files {start : Site} {path : String}
    (pair : PairSpares start.files newKeyPath path) (apart : config.inventory.keyFile ≠ path) :
    Always (setupStep guards env) (verifiedTemplate rt py polls config newUser newKeyPath) start
      (fun _ mid => mid.files.content path = start.files.content path) := by
  have made : Always localStep (generateSshKeypair rt newKeyPath s!"{newUser}@vmdeploy") start.files
      (fun _ files => files.content path = start.files.content path) := by
    rcases pair with paired | ⟨privateKey, publicKey⟩
    · exact always_paired _ paired
    · exact always_spared (generateSshKeypair_spares _ privateKey publicKey)
  rw [verifiedTemplate]
  split
  · exact always_raise rfl
  refine always_bind (Always.mono (always_local made) ?_)
  rintro outcome _ ⟨files, rfl, same⟩
  cases outcome with
  | raised error => exact same
  | stopped => exact same
  | returned publicKey =>
    have later : Always (setupStep guards env)
        (withPublicKey rt py polls config newUser newKeyPath publicKey) { start with files := files }
        (fun _ mid => mid.files.content path = files.content path) :=
      always_spares (withPublicKey_limits rt py polls config newUser newKeyPath (fun _ => trivial)
        (loadOrCreateKey_spares apart) publicKey)
    exact Always.mono later fun _ _ kept => kept.trans same

theorem always_verified {start : Site} (strangers : Strangers start.guest newUser config.ssh.user)
    (overlay : Unwritten config newKeyPath (localOverlayPath basePath))
    (bootKey : PairSpares start.files newKeyPath config.ssh.keyPath)
    (apart : config.inventory.keyFile ≠ config.ssh.keyPath)
    (identified : Identified rt platform basePath (.parsed base) guards env config start) :
    Always (setupStep guards env) (verifiedTemplate rt py polls config newUser newKeyPath) start
      (fun outcome mid => Identified rt platform basePath (.parsed base) guards env config mid ∧
        mid.files.content (localOverlayPath basePath) =
          start.files.content (localOverlayPath basePath) ∧
        Ends (fun _ => True) (fun _ mid => Apart (mid.guest.access newUser) config.ssh.user ∧
          Enters guards env newUser (mid.files.content newKeyPath) (mid.guest.access newUser))
          outcome mid) := by
  have confined : Always (setupStep guards env)
      (verifiedTemplate rt py polls config newUser newKeyPath) start
      (fun _ mid => Confined newUser start.guest mid.guest) :=
    always_confined (verifiedTemplate_concerns rt py polls config newUser newKeyPath)
  have keepsOverlay : Always (setupStep guards env)
      (verifiedTemplate rt py polls config newUser newKeyPath) start (fun _ mid =>
        mid.files.content (localOverlayPath basePath) =
          start.files.content (localOverlayPath basePath)) :=
    always_verified_files (overlay.pairSpares _) overlay.keyFile
  have keepsKey : Always (setupStep guards env)
      (verifiedTemplate rt py polls config newUser newKeyPath) start (fun _ mid =>
        mid.files.content config.ssh.keyPath = start.files.content config.ssh.keyPath) :=
    always_verified_files bootKey apart
  have verifies : Always (setupStep guards env)
      (verifiedTemplate rt py polls config newUser newKeyPath) start (Ends (fun _ => True) fun _ mid =>
        Enters guards env newUser (mid.files.content newKeyPath) (mid.guest.access newUser)) :=
    ends_verifiedTemplate rt py polls config newUser newKeyPath
  refine Always.mono (confined.and (keepsOverlay.and (keepsKey.and verifies))) ?_
  rintro outcome mid ⟨confined, sameOverlay, sameKey, verified⟩
  refine ⟨⟨(effectiveConfig_same sameOverlay).trans identified.loaded, ?_⟩, sameOverlay, ?_⟩
  · rw [sameKey, confined.access strangers.differs.symm strangers.wholeFirst strangers.apartSecond]
    exact identified.enters
  · cases outcome with
    | returned address =>
      exact ⟨confined.apart strangers.wholeFirst strangers.wholeSecond strangers.differs
        strangers.apartFirst, verified⟩
    | raised error => trivial
    | stopped => trivial

-- From there on the old account is taken apart, and what carries is the verified one.
theorem ends_handOver_identified {mid : Site} (address : String)
    (literal : Literal platform newUser newKeyPath) (unset : trimmed platform.sshUser = "")
    (normal : posixPath newKeyPath = newKeyPath)
    (overlaid : Overlaid rt basePath mid.files mapping.data) (found : SshTable mapping ssh)
    (rereads : mapping.Rereads rt) (differs : newUser ≠ config.ssh.user)
    (whole : '/' ∉ config.ssh.user.toList) (apart : Apart (mid.guest.access newUser) config.ssh.user)
    (newKey : newKeyPath ≠ localOverlayPath basePath)
    (loaded : effectiveConfig rt platform basePath (.parsed base) mid.files = .ok config)
    (verified : Enters guards env newUser (mid.files.content newKeyPath) (mid.guest.access newUser)) :
    Always (setupStep guards env) (handOver rt config basePath newUser newKeyPath address) mid
      (Ends
        (fun after =>
          Enters guards env newUser (after.files.content newKeyPath) (after.guest.access newUser))
        fun _ after => Identified rt platform basePath (.parsed base) guards env
          (renamed platform config newUser newKeyPath) after) := by
  have hands : Always (setupStep guards env)
      (handOver rt config basePath newUser newKeyPath address) mid
      (fun _ after => Confined config.ssh.user mid.guest after.guest) :=
    always_confined (handOver_concerns rt config basePath newUser newKeyPath address)
  have names : Always (setupStep guards env)
      (handOver rt config basePath newUser newKeyPath address) mid _ :=
    ends_handOver_files address literal overlaid found rereads loaded
  refine Always.mono (hands.and names) ?_
  rintro outcome after ⟨handed, ended⟩
  have kept := handed.access differs whole apart
  have entering (beside : Beside basePath mid.files after.files) :
      Enters guards env newUser (after.files.content newKeyPath) (after.guest.access newUser) := by
    rw [kept, beside _ newKey]
    exact verified
  cases outcome with
  | raised error => exact entering ended
  | stopped => exact entering ended
  | returned value =>
    have enters := entering ended.1
    refine ⟨ended.2, ?_⟩
    simp only [renamed, if_pos unset, normal]
    exact enters

/-- From the verified user on every request is granted, and the run is not stopped. -/
def handsOverWhole (rt : Runtime) (py : Inventory.Interpreter) (polls : Nat) (config : ClusterConfig)
    (basePath newUser newKeyPath : String) (guards : Guards) (env : Option String) (start : Site)
    (script : List SetupChoice) : Bool :=
  (verifiedTemplate rt py polls config newUser newKeyPath).thereafter (setupStep guards env)
    (fun address mid rest => (handOver rt config basePath newUser newKeyPath address).granted
      (setupStep guards env) (setupGrants newKeyPath) mid rest) start script

theorem no_other_user : trimmed examplePlatform.sshUser = "" := by
  rfl

theorem operator_spares_overlay : Unwritten Provision.exampleTeardown "keys/operator_key"
    (localOverlayPath "config/cluster.toml") := by
  constructor <;> decide

/-- The template of a setup that is run again: the operator has an account and a key pair. -/
def keyedSite : Site where
  guest :=
    { homes := "/home"
      logins := fun user =>
        if user = "vmadmin" then some ⟨false, "/bin/bash", true, "/home/vmadmin"⟩
        else if user = "operator" then some ⟨true, "/bin/bash", false, "/home/operator"⟩
        else none
      files := fun path =>
        if path = authorizedKeys "vmadmin" then some ⟨stockKeys, "vmadmin:vmadmin", "600"⟩
        else if path = sudoersFile "vmadmin" then some ⟨[], "root:root", "440"⟩
        else none }
  files :=
    { content := fun path =>
        if path = "keys/vm_key" then some []
        else if path = "keys/operator_key" then some []
        else if path = "keys/operator_key.pub" then some stockKeys
        else none
      warnings := [] }
  account := ""
  attempts := []

def granted : SetupChoice :=
  ((succeeding, none), (Inventory.meeting none, runningTemplate))

def diskFull : SetupChoice :=
  ((succeeding, none), (Inventory.meeting (some "No space left on device"), runningTemplate))

def keyedSetup (script : List SetupChoice) : Outcome PyError Unit × Site :=
  (runSetup exampleRuntime Inventory.exampleInterpreter 24 Provision.exampleTeardown
    "config/cluster.toml" "operator" "keys/operator_key").eval (setupStep keyGuards none) keyedSite script

theorem keyed_absent : keyedSite.files.content (localOverlayPath "config/cluster.toml") = none := by
  rfl

theorem keyed_identified : Identified exampleRuntime examplePlatform "config/cluster.toml"
    (.parsed stockDocument) keyGuards none Provision.exampleTeardown keyedSite := by
  refine ⟨?_, rfl, .inl rfl⟩
  rw [effectiveConfig, keyed_absent, Option.map_none]
  exact example_loads

/-- `run_keys_only_setup` -/
def runKeysOnlySetup (rt : Runtime) (py : Inventory.Interpreter) (config : ClusterConfig)
    (basePath newUser newKeyPath : String) : FileProg Unit := do
  let _ ← generateSshKeypair rt newKeyPath s!"{newUser}@vmdeploy"
  let _ ← Inventory.loadOrCreateKey py config.inventory.keyFile
  let _ ← writeLocalOverlay rt basePath newUser newKeyPath
  pure ()

end Handover

end VmDeploy.Setup
