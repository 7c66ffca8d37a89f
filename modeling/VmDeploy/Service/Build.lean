import VmDeploy.Remote.Sudo
import VmDeploy.Service.SourceHash

/-! `inventory_service.py`: installing the pinned toolchain, compiling the service on
the guest and deciding whether that is needed. -/

set_option autoImplicit false

open Effects Python Shell

namespace VmDeploy.Service

open Remote

def serviceName : String := "inventory"

def buildDir : String := "/tmp/vmdeploy-goservice"

def goInstallRoot : String := "/usr/local/go"

def goBinLink : String := "/usr/local/bin/go"

def sourceHashFile : String := ".source-hash"

def buildTimeoutSeconds : Nat := 600

def stripped (text : String) : String :=
  String.ofList (strip text.toList)

/-- `first.strip() or second.strip()` -/
def strippedOr (first second : String) : String :=
  if stripped first ≠ "" then stripped first else stripped second

section Toolchain

variable (cacheDir : String) (host : RemoteHost) (build : BuildConfig)

def archiveName : String :=
  s!"go{build.goVersion}.linux-amd64.tar.gz"

def checkArchive (dest : String) : ServiceProg Unit := do
  let actual ← orOsError (← askLocal (.sha256File dest))
  if actual = build.goSha256 then
    pure ()
  else do
    orOsError (← askLocal (.unlink dest))
    .raise (.vmDeployError (s!"Downloaded Go archive {archiveName build} has SHA-256 {actual}, " ++
      s!"expected {build.goSha256}; refusing a toolchain that may be corrupted or substituted"))

def downloadArchive (dest : String) : ServiceProg Unit := do
  orOsError (← askLocal (.mkdirParents cacheDir))
  let url := s!"https://go.dev/dl/{archiveName build}"
  match ← askLocal (.download url dest) with
  | .error (.requestException exc) =>
      .raise (.vmDeployError s!"Failed to download {url} on the automation host: {exc}")
  | .error (.osError exc) => .raise (.osError exc)
  | .ok () => checkArchive build dest

/-- `_fetch_go_archive_to_host` -/
def fetchGoArchiveToHost : ServiceProg String := do
  let dest := s!"{cacheDir}/{archiveName build}"
  if ← askLocal (.isFile dest) then
    let cached ← orOsError (← askLocal (.sha256File dest))
    if cached = build.goSha256 then
      pure dest
    else do
      downloadArchive cacheDir build dest
      pure dest
  else do
    downloadArchive cacheDir build dest
    pure dest

/-- `host.sftp().put`; both its failures are translated. -/
def uploadArchive (localArchive tmp : String) : ServiceProg Unit := do
  match ← onGuest (ask .openSftp) with
  | .error exc => .raise (failed s!"Cannot open SFTP to {host.address}: {exc}")
  | .ok () => do
      match ← onGuest (ask (.sftpPut localArchive tmp)) with
      | .error exc => .raise (failed exc)
      | .ok () => pure ()
where
  failed (exc : String) : PyError :=
    .vmDeployError s!"Failed to upload Go archive to {host.address}: {exc}"

def goVersionLine : Line :=
  ⟨⟨.program, ["go", "version"], [.discardErrors]⟩, []⟩

def checksumLine (tmp : String) : Line :=
  ⟨⟨.builtin, ["printf", "'%s  %s'", build.goSha256, tmp], []⟩,
    [(.pipe, ⟨.program, ["sha256sum", "-c", "-"], []⟩)]⟩

def wantedVersion : Text :=
  strip s!"go version go{build.goVersion} ".toList

def reportsWanted (result : CommandResult) : Bool :=
  result.ok && (afterPrefix? (wantedVersion build) (strip result.stdout.toList)).isSome

def unpackGo (tmp : String) : List Line :=
  [program ["rm", "-rf", goInstallRoot],
    program ["tar", "-C", "/usr/local", "-xzf", tmp],
    program ["ln", "-sf", s!"{goInstallRoot}/bin/go", goBinLink],
    program ["ln", "-sf", s!"{goInstallRoot}/bin/gofmt", "/usr/local/bin/gofmt"]]

def sudoAll (host : RemoteHost) : List Line → RemoteProg Unit
  | [] => pure ()
  | line :: rest => do
      let _ ← host.sudo line true none
      sudoAll host rest

def installGo : ServiceProg String := do
  let current ← onGuest (host.run (.plain goVersionLine) false none)
  if reportsWanted build current then
    pure (stripped current.stdout)
  else do
    let localArchive ← fetchGoArchiveToHost cacheDir build
    let tmp := s!"/tmp/{archiveName build}"
    uploadArchive host localArchive tmp
    let check ← onGuest (host.run (.plain (checksumLine build tmp)) false none)
    if !check.ok then do
      let _ ← onGuest (host.run (.plain (program ["rm", "-f", tmp])) false none)
      .raise (.vmDeployError (s!"Go archive on {host.address} failed SHA-256 verification after " ++
        s!"upload; the transfer may be corrupt.\n{strippedOr check.stdout check.stderr}"))
    else do
      onGuest (sudoAll host (unpackGo tmp))
      let _ ← onGuest (host.run (.plain (program ["rm", "-f", tmp])) false none)
      let version ← onGuest (host.run (.plain (program ["go", "version"])) false none)
      if reportsWanted build version then
        pure (stripped version.stdout)
      else
        .raise (.vmDeployError (s!"Pinned Go {build.goVersion} is not usable on {host.address} " ++
          s!"after install: {strippedOr version.stdout version.stderr}"))

section Requests

variable {P : (remoteSignature.sum localSignature).Op → Prop} {host} {A : Type}

theorem orOsError_only (reply : Except String A) : (orOsError reply).Only P := by
  cases reply <;> trivial

theorem downloadArchive_only (asks : ∀ op : LocalOp, (∀ path, op ≠ .readBytes path) → P (.inr op))
    (dest : String) : (downloadArchive cacheDir build dest).Only P := by
  refine Prog.Only.bind ⟨asks _ nofun, fun _ => trivial⟩ fun made => ?_
  refine Prog.Only.bind (orOsError_only made) fun _ => ?_
  refine Prog.Only.bind ⟨asks _ nofun, fun _ => trivial⟩ fun reply => ?_
  split
  · trivial
  · trivial
  · refine Prog.Only.bind ⟨asks _ nofun, fun _ => trivial⟩ fun digest => ?_
    refine Prog.Only.bind (orOsError_only digest) fun actual => ?_
    split
    · trivial
    · refine Prog.Only.bind ⟨asks _ nofun, fun _ => trivial⟩ fun removed => ?_
      exact Prog.Only.bind (orOsError_only removed) fun _ => trivial

theorem fetchGoArchiveToHost_only
    (asks : ∀ op : LocalOp, (∀ path, op ≠ .readBytes path) → P (.inr op)) :
    (fetchGoArchiveToHost cacheDir build).Only P := by
  have downloads : ((downloadArchive cacheDir build s!"{cacheDir}/{archiveName build}").bind fun _ =>
      .done s!"{cacheDir}/{archiveName build}").Only P :=
    Prog.Only.bind (downloadArchive_only cacheDir build asks _) fun _ => trivial
  refine Prog.Only.bind ⟨asks _ nofun, fun _ => trivial⟩ fun present => ?_
  split
  · refine Prog.Only.bind ⟨asks _ nofun, fun _ => trivial⟩ fun digest => ?_
    refine Prog.Only.bind (orOsError_only digest) fun cached => ?_
    split
    · trivial
    · exact downloads
  · exact downloads

theorem uploadArchive_only (opens : P (.inl .openSftp)) {localArchive tmp : String}
    (puts : P (.inl (.sftpPut localArchive tmp))) : (uploadArchive host localArchive tmp).Only P := by
  refine Prog.Only.bind ⟨opens, fun _ => trivial⟩ fun opened => ?_
  split
  · trivial
  · refine Prog.Only.bind ⟨puts, fun _ => trivial⟩ fun stored => ?_
    split <;> trivial

theorem sudoAll_only {Q : RemoteOp → Prop} (reads : Q (.getenv sudoPasswordEnv)) {lines : List Line}
    (sends : ∀ line ∈ lines, ∀ mode stdin seconds, Q (.exec (.elevated mode line) stdin seconds)) :
    (sudoAll host lines).Only Q := by
  induction lines with
  | nil => trivial
  | cons line rest ih =>
    refine Prog.Only.bind (sudo_only reads (sends line List.mem_cons_self)) ?_
    exact fun _ => ih fun later member => sends later (List.mem_cons_of_mem _ member)

end Requests

end Toolchain

section Build

variable (sha256 : Bytes → Bytes) (host : RemoteHost) (sourceDir remoteDir : String)

def buildPath (name : String) : String :=
  s!"{buildDir}/{name}"

def missingSources : List String → ServiceProg (List String)
  | [] => pure []
  | name :: names => do
      let present ← askLocal (.isFile (sourcePath sourceDir name))
      let missing ← missingSources names
      pure (if present then missing else name :: missing)

def requireSources : ServiceProg Unit := do
  let missing ← missingSources sourceDir sourceFiles
  if missing ≠ [] then
    .raise (.vmDeployError (s!"Go service sources missing from {sourceDir}: " ++
      String.ofList (reprList (missing.map String.toList))))
  else do
    let template := sourcePath sourceDir templateRel
    if ← askLocal (.isFile template) then
      pure ()
    else
      .raise (.vmDeployError s!"Go service template missing: {template}")

def prepareBuildDir : Line :=
  ⟨⟨.program, ["rm", "-rf", buildDir], []⟩,
    [(.andIf, ⟨.program, ["mkdir", "-p", s!"{buildDir}/templates"], []⟩)]⟩

/-- Each file is read from the source tree just before it is uploaded. -/
def uploadSources : List String → ServiceProg Unit
  | [] => pure ()
  | name :: names => do
      let content ← readSource (sourcePath sourceDir name)
      onGuest (host.putBytes content (buildPath name) 0o644)
      uploadSources names

def chownBuildDir : Line :=
  program ["chown", "-R", "$(id -un):$(id -gn)", buildDir]

def goBuild : Simple :=
  ⟨.program, ["GOCACHE=/tmp/vmdeploy-gocache", "GOFLAGS=-mod=mod", "go", "build", "-trimpath", "-o",
    buildPath serviceName, "."], []⟩

def compileLine : Line :=
  ⟨⟨.builtin, ["cd", buildDir], []⟩, [(.andIf, goBuild)]⟩

def compileService : RemoteProg Unit := do
  let build ← host.run (.plain compileLine) false (some buildTimeoutSeconds)
  if build.ok then
    pure ()
  else
    .raise (.vmDeployError (s!"Failed to compile the inventory service on {host.address}:\n" ++
      strippedOr build.stderr build.stdout))

def makeRemoteDir : Line :=
  program ["mkdir", "-p", remoteDir]

def installBinary : Line :=
  program ["install", "-m", "0755", buildPath serviceName, s!"{remoteDir}/{serviceName}"]

def removeBuildDir : Line :=
  program ["rm", "-rf", buildDir]

/-- `sh -c 'printf %s {digest} > {remote_dir}/.source-hash'`, in its blank-separated words. -/
def writeStamp (digest : String) : Line :=
  program ["sh", "-c", "'printf", "%s", digest, ">", s!"{remoteDir}/{sourceHashFile}'"]

def buildService : ServiceProg Unit := do
  requireSources sourceDir
  let _ ← onGuest (host.run (.plain prepareBuildDir) true none)
  uploadSources host sourceDir hashFiles
  let _ ← onGuest (host.sudo chownBuildDir false none)
  onGuest (compileService host)
  let _ ← onGuest (host.sudo (makeRemoteDir remoteDir) true none)
  let _ ← onGuest (host.sudo (installBinary remoteDir) true none)
  let _ ← onGuest (host.run (.plain removeBuildDir) false none)
  let digest ← sourceHash sha256 sourceDir
  let _ ← onGuest (host.sudo (writeStamp remoteDir digest) true none)
  pure ()

def installedSourceHash : RemoteProg String := do
  let result ← host.sudo (catSourceHash remoteDir) false none
  pure (stripped result.stdout)

def testBinary : Line :=
  program ["test", "-x", s!"{remoteDir}/{serviceName}"]

/-- Whether the service was recompiled. -/
def ensureServiceBinary (cacheDir : String) (config : ClusterConfig) : ServiceProg Bool := do
  let remoteDir := config.inventory.remoteDir
  let wanted ← sourceHash sha256 sourceDir
  let installed ← onGuest (installedSourceHash host remoteDir)
  let present ← onGuest (host.sudo (testBinary remoteDir) false none)
  if present.ok && installed = wanted then
    pure false
  else do
    let _ ← installGo cacheDir host config.build
    buildService sha256 host sourceDir remoteDir
    pure true

end Build

end VmDeploy.Service
