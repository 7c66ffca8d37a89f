import VmDeploy.Python.Dict
import VmDeploy.Remote.Sudo
import VmDeploy.Seed.Validators
import VmDeploy.Setup.Quoting

/-! `stamp_backend_identity` of `website.py`: a loop of the shell over the served documents.

A file is the list of its bytes, each written as the character of its number, and so is a path.
The document root is a path that the shell passes on as it is. -/

set_option autoImplicit false

open Effects Shell Python

namespace VmDeploy.Website

open Remote

abbrev Files := Dict Text Text

abbrev Backend := { name : Text // Seed.Label name }

def backendMetaName : String := "x-backend-host"

def metaTag (backend : Backend) : Text :=
  s!"<meta name=\"{backendMetaName}\" content=\"".toList ++ backend.val ++ ['"', '>']

def stampScript (root : Text) (backend : Backend) : String :=
  let tag := String.ofList (metaTag backend)
  s!"for html_file in $(grep -rlI --include='*.html' -e '<head' {String.ofList root} " ++
    "2>/dev/null); do " ++
    s!"  grep -q '{backendMetaName}' \"$html_file\" && continue; " ++
    s!"  sed -i '0,/<[Hh][Ee][Aa][Dd][^>]*>/s//&\\n    {tag}/' \"$html_file\"; " ++
    "done"

/-- The rest of a text after these lower-case characters, each in either case. -/
def afterFold? : Text → Text → Option Text
  | [], text => some text
  | _ :: _, [] => none
  | letter :: letters, c :: text =>
      if c = letter ∨ c = letter.toUpper then afterFold? letters text else none

def headName : Text := ['<', 'h', 'e', 'a', 'd']

/-- The rest of a line after a match of `<[Hh][Ee][Aa][Dd][^>]*>` at its start. -/
def afterHead? (text : Text) : Option Text := do
  let attributes ← afterFold? headName text
  match attributes.dropWhile fun c => c ≠ '>' && c ≠ '\n' with
  | '>' :: after => some after
  | _ => none

def splitAfter (after? : Text → Option Text) : Text → Option (Text × Text)
  | [] => none
  | c :: text =>
      match after? (c :: text) with
      | some after => some ((c :: text).take ((c :: text).length - after.length), after)
      | none => (splitAfter after? text).map fun parts => (c :: parts.1, parts.2)

def stamp (backend : Backend) : Text :=
  ['\n', ' ', ' ', ' ', ' '] ++ metaTag backend

/-- `0,/<[Hh][Ee][Aa][Dd][^>]*>/s//&\n    tag/`: only the first line that matches is changed,
and in it only the first match. -/
def sedHead (backend : Backend) (content : Text) : Text :=
  match splitAfter afterHead? content with
  | some (front, after) => front ++ (stamp backend ++ after)
  | none => content

/-- What the loop meets: which contents `grep -I` takes for binary, and which files a field of
its list names after the expansion of patterns. A stamp makes no file binary, or text. -/
structure Guest where
  binary : Text → Bool
  expand : Text → List Text
  steady : ∀ backend content, binary (sedHead backend content) = binary content

def isHtml (path : Text) : Bool :=
  ".html".toList.isSuffixOf path

def isUnder (root path : Text) : Bool :=
  ((if root.getLast? = some '/' then root else root ++ ['/'])).isPrefixOf path

/-- `grep -rlI --include='*.html' -e '<head'` -/
def selects (guest : Guest) (root : Text) (file : Text × Text) : Bool :=
  isUnder root file.1 && isHtml file.1 && !guest.binary file.2 && containsText headName file.2

def isFieldSeparator (c : Char) : Bool :=
  c = ' ' || c = '\t' || c = '\n'

def fields (paths : List Text) : List Text :=
  ((paths.flatMap fun path => path ++ ['\n']).splitOnP isFieldSeparator).filter (· ≠ [])

def loopFiles (guest : Guest) (root : Text) (files : Files) : List Text :=
  (fields ((files.filter (selects guest root)).map Prod.fst)).flatMap guest.expand

def isMarked (content : Text) : Bool :=
  containsText backendMetaName.toList content

def stampFile (backend : Backend) (files : Files) (path : Text) : Files :=
  match Dict.get? files path with
  | some content =>
      if isMarked content then files else Dict.assign files path (sedHead backend content)
  | none => files

def stampFiles (guest : Guest) (root : Text) (backend : Backend) (files : Files) : Files :=
  (loopFiles guest root files).foldl (stampFile backend) files

def stampLine (root : Text) (backend : Backend) : Line :=
  program ["sh", "-c", shellQuote (stampScript root backend)]

def commandFailure (command : String) (exitStatus : Nat) (stderr : String) : String :=
  let stripped := String.ofList (strip stderr.toList)
  let shown := if stripped = "" then "<empty>" else stripped
  s!"Remote command exited with status {exitStatus}: {command}\nstderr: {shown}"

def stampHandler (host : RemoteHost) (root : Text) : PyError → Option (RemoteProg Unit)
  | .remoteCommandError command exitStatus _ stderr =>
      some (.raise (.vmDeployError
        (s!"Could not stamp backend identity into {String.ofList root} on {host.address}: " ++
          commandFailure command exitStatus stderr)))
  | _ => none

def stampBackendIdentity (host : RemoteHost) (root : Text) (backend : Backend) : RemoteProg Unit :=
  (do let _ ← host.sudo (stampLine root backend) true none; pure ()).catching
    (stampHandler host root)

/-- The guest runs the loop to its end, whatever status it then exits with. -/
def perform (guest : Guest) (root : Text) (backend : Backend) (output : Script → Output)
    (script : Script) : Perform Files
  | .opens _ _, files => (output script, files)
  | .runs _ command, files =>
      (output script,
        if command.words = (stampLine root backend).head.words then
          stampFiles guest root backend files
        else files)

def siteStep (guest : Guest) (root : Text) (backend : Backend) (policy : Policy)
    (env : Option String) : Step remoteSignature Files (Script → Output)
  | output, .exec script stdin _, files =>
      let ran := script.run (perform guest root backend output script) policy stdin files
      (.ok ran.output, ran.world)
  | _, .getenv name, files => (if name = sudoPasswordEnv then env else none, files)
  | _, .openSftp, files => (.ok (), files)
  | _, .sftpWrite _ _, files => (.ok (), files)
  | _, .sftpPut _ _, files => (.ok (), files)
  | _, .urandom _, files => ([], files)

end VmDeploy.Website
