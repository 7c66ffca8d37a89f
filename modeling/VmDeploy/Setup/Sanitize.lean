import VmDeploy.Python.Text
import VmDeploy.Remote.Sudo

/-! `setup.py`: stripping the template before it is published.

Of the guest it is assumed that `find` run by root lists what is there, that `true`
does nothing, and that only `usermod -L` in the lock loop changes a password. Every
other command may end in any way and may create or remove any file. -/

set_option autoImplicit false

open Effects Shell Python

namespace VmDeploy.Setup

open Remote

/-- `_shell_quote` -/
def shellQuote (value : String) : String :=
  "'" ++ String.ofList (value.toList.flatMap fun c =>
    if c = '\'' then ['\'', '\\', '\'', '\''] else [c]) ++ "'"

def buildToolingPackages : List String :=
  ["git", "gh", "docker.io", "docker-ce", "docker-ce-cli", "containerd", "containerd.io", "runc"]

def credentialGlobs : List String :=
  [".docker", ".git-credentials", ".gitconfig", ".config/gh", ".config/git", ".netrc", ".aws",
    ".bash_history", ".ssh/id_*", ".ssh/known_hosts", ".ssh/authorized_keys"]

def purgeScript : String :=
  let targets := " ".intercalate (credentialGlobs.map fun pattern => s!"\"$home\"/{pattern}")
  "for home in /root /home/*; do [ -d \"$home\" ] || continue; " ++ s!"rm -rf {targets}; " ++ "done"

def lockScript (operationalUser : String) : String :=
  "getent passwd | awk -F: '$3>=1000 && $3<60000 \x7bprint $1\x7d' | while read -r account; do " ++
    s!"  [ \"$account\" = \"{operationalUser}\" ] && continue; " ++
    "  usermod -L \"$account\" 2>/dev/null || true; " ++
    "  usermod -s /usr/sbin/nologin \"$account\" 2>/dev/null || true; " ++
    "  gpasswd -d \"$account\" sudo 2>/dev/null || true; " ++
    "  rm -f \"/etc/sudoers.d/90-$account\"; " ++
    "  rm -f \"/home/$account/.ssh/authorized_keys\"; " ++
    "done"

def purgeCredentials : Line :=
  program ["sh", "-c", shellQuote purgeScript]

def lockAccounts (operationalUser : String) : Line :=
  program ["sh", "-c", shellQuote (lockScript operationalUser)]

def purgePackages : Line :=
  tolerated .program
    (["DEBIAN_FRONTEND=noninteractive", "apt-get", "purge", "-y"] ++ buildToolingPackages)

def autoremove : Line :=
  tolerated .program ["DEBIAN_FRONTEND=noninteractive", "apt-get", "autoremove", "-y"]

def removeDockerData : Line :=
  program ["rm", "-rf", "/var/lib/docker", "/etc/docker", "/var/lib/containerd"]

def groupdelDocker : Line :=
  tolerated .program ["groupdel", "docker"]

def aptClean : Line :=
  program ["apt-get", "clean"]

def findTooling : Line :=
  tolerated .builtin ["command", "-v", "git", "docker", "gh"]

def survivedMessage (survivors : List Text) : String :=
  s!"authorized_keys survived sanitisation at {String.ofList (reprList survivors)}; the image " ++
    "would ship a working login and must not be published. Sanitisation did not complete."

def verifyNoAuthorizedKeys (host : RemoteHost) : RemoteProg Unit := do
  let result ← host.sudo findAuthorizedKeys false none
  let survivors := splitWords result.stdout.toList
  if survivors = [] then
    pure ()
  else
    .raise (.vmDeployError (survivedMessage survivors))

/-- The privileged steps after the accounts are locked, none of them checked. -/
def purgeTooling : List Line :=
  [purgePackages, autoremove, removeDockerData, groupdelDocker, aptClean]

def runAll (host : RemoteHost) : List Line → RemoteProg Unit
  | [] => pure ()
  | line :: rest => do
      let _ ← host.sudo line false none
      runAll host rest

def sanitizeImage (host : RemoteHost) (operationalUser : String) : RemoteProg Unit := do
  let _ ← host.sudo purgeCredentials false none
  let _ ← host.sudo (lockAccounts operationalUser) false none
  runAll host purgeTooling
  -- Tooling that is left over is only logged.
  let _ ← host.run (.plain findTooling) false none
  verifyNoAuthorizedKeys host

/-- A password is usable unless its field is locked; an empty one counts as usable. -/
structure Account where
  name : String
  uid : Nat
  usable : Bool
  deriving DecidableEq, Repr

def Account.human (account : Account) : Bool :=
  1000 ≤ account.uid && account.uid < 60000

/-- The components of the path of a directory entry, from the root down. A link is
an entry; what it leads to is an entry of another path. -/
abbrev Path := List String

structure Image where
  accounts : List Account
  paths : List Path
  deriving DecidableEq, Repr

def holdsKeys (path : Path) : Bool :=
  (path.head? == some "root" || path.head? == some "home") &&
    path.getLast? == some "authorized_keys"

/-- The entries named `authorized_keys` under `/root` or `/home`. -/
def Image.keyFiles (image : Image) : List Path :=
  image.paths.filter holdsKeys

def renderPath (path : Path) : Text :=
  path.flatMap fun name => '/' :: name.toList

def Image.listing (image : Image) : String :=
  String.ofList (image.keyFiles.flatMap fun path => renderPath path ++ ['\n'])

/-- The image together with a record of each `usermod -L` and whether it succeeded. -/
structure Guest where
  image : Image
  locks : List (String × Bool)
  deriving DecidableEq, Repr

/-- The accounts the lock loop reaches. -/
def Account.lockable (operationalUser : String) (account : Account) : Bool :=
  account.human && account.name != operationalUser

def Account.lockIf (operationalUser : String) (took : String → Bool) (account : Account) :
    Account :=
  if account.lockable operationalUser && took account.name then
    { account with usable := false }
  else
    account

def Guest.lock (operationalUser : String) (took : String → Bool) (guest : Guest) : Guest where
  image := { guest.image with
    accounts := guest.image.accounts.map (Account.lockIf operationalUser took) }
  locks := guest.locks ++
    (guest.image.accounts.filter (Account.lockable operationalUser)).map
      fun account => (account.name, took account.name)

/-- What one request meets: the result and the files each action leaves, the locks
that take effect, and whether the transport fails. -/
structure Choice where
  output : Event → Output
  paths : Event → List Path → List Path
  took : String → Bool
  lost : Option String
  transfer : Except String Unit
  random : List UInt8

def Choice.perform (x : Choice) (operationalUser : String) : Perform Guest
  | event, guest =>
      if event = .runs .root findAuthorizedKeys.head then
        (⟨(x.output event).exitStatus, guest.image.listing, (x.output event).stderr⟩, guest)
      else if event = .runs .user trueCommand then
        (⟨0, "", ""⟩, guest)
      else
        let locked :=
          if event = .runs .root (lockAccounts operationalUser).head then
            guest.lock operationalUser x.took
          else guest
        (x.output event,
          { locked with image.paths := x.paths event locked.image.paths })

def sanitizedGuest (operationalUser : String) : Environment Guest Choice where
  perform x := x.perform operationalUser
  lost := Choice.lost
  transfer
    | x, .exec _ _ _, guest => (.error (x.lost.getD ""), guest)
    | _, .getenv _, guest => (none, guest)
    | x, .openSftp, guest => (x.transfer, guest)
    | x, .sftpWrite _ _, guest => (x.transfer, guest)
    | x, .sftpPut _ _, guest => (x.transfer, guest)
    | x, .urandom _, guest => (x.random, guest)

abbrev guestStep (policy : Policy) (env : Option String) (operationalUser : String) :
    Step remoteSignature Guest Choice :=
  (sanitizedGuest operationalUser).step policy env

end VmDeploy.Setup
