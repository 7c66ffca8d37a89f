import VmDeploy.Apache.Directives
import VmDeploy.Encoding.Utf8
import VmDeploy.Remote.Sudo

/-! `_ensure_listen_port` of `apache.py`, and what Apache makes of the file it edits. -/

set_option autoImplicit false

open Effects Shell Python

namespace VmDeploy.Apache

open Remote

def portsConf : String := "/etc/apache2/ports.conf"

def listedPort? (line : Text) : Option Text :=
  let words := splitWords (strip line)
  if (afterPrefix? "Listen".toList (strip line)).isSome && 1 < words.length then words[1]? else none

/-- `str(port) in directives` -/
def lists (port : Nat) (current : Text) : Bool :=
  (splitLines current).any fun line => listedPort? line == some (toString port).toList

inductive ConfOp where
  | sftpRead (path : String)

abbrev ConfOp.Reply : ConfOp → Type
  | .sftpRead _ => Except String (List UInt8)

abbrev confSignature : Signature :=
  ⟨ConfOp, ConfOp.Reply⟩

abbrev ConfProg (A : Type) :=
  Prog (remoteSignature.sum confSignature) PyError A

def readRemote (path : String) : ConfProg (Except String (List UInt8)) :=
  Prog.liftRight (Prog.perform (I := confSignature) (ConfOp.sftpRead path))

def getBytes (host : RemoteHost) (remotePath : String) : ConfProg (List UInt8) := do
  host.openSftp.liftLeft
  match ← readRemote remotePath with
  | .ok content => pure content
  | .error exc =>
      .raise (.sshConnectionError s!"Cannot read {host.address}:{remotePath}: {exc}")

def appendListen (port : Nat) : Line :=
  program ["sh", "-c", "'echo", "\"Listen", s!"{port}\"", ">>", s!"{portsConf}'"]

/-- The decoded file, or nothing where it cannot be read. -/
def readCurrent (host : RemoteHost) : ConfProg Text :=
  (do let content ← getBytes host portsConf; pure (Utf8.lossy content)).catching fun error =>
    if isVmDeployError error then some (pure []) else none

def ensureListenPort (host : RemoteHost) (port : Nat) : ConfProg Unit := do
  let current ← readCurrent host
  if lists port current then
    pure ()
  else do
    let _ ← (host.sudo (appendListen port) true none).liftLeft
    pure ()

/-- The file, if there is one, and whether the login account may read it. -/
structure PortsConf where
  content : Option (List UInt8)
  readable : Bool
  deriving DecidableEq, Repr

def PortsConf.bytes (conf : PortsConf) : List UInt8 :=
  conf.content.getD []

def PortsConf.append (conf : PortsConf) (text : Text) : PortsConf :=
  { conf with content := some (conf.bytes ++ Utf8.encode text) }

/-- An `echo` that exits with zero has appended its line, and no other has an effect. -/
def perform (output : Script → Output) (script : Script) : Perform PortsConf
  | .opens _ _, conf => (output script, conf)
  | .runs _ command, conf =>
      match command.words with
      | ["sh", "-c", "'echo", "\"Listen", word, ">>", target] =>
          if (output script).exitStatus = 0 ∧ target = s!"{portsConf}'" then
            (output script, conf.append ("Listen ".toList ++ word.toList.dropLast ++ ['\n']))
          else (output script, conf)
      | _ => (output script, conf)

/-- A working connection: every script is answered, and a file that may be read is read. -/
def confStep (policy : Policy) (env : Option String) :
    Step (remoteSignature.sum confSignature) PortsConf (Script → Output)
  | output, .inl (.exec script stdin _), conf =>
      let ran := script.run (perform output script) policy stdin conf
      (.ok ran.output, ran.world)
  | _, .inl (.getenv name), conf => (if name = sudoPasswordEnv then env else none, conf)
  | _, .inl .openSftp, conf => (.ok (), conf)
  | _, .inl (.sftpWrite _ _), conf => (.ok (), conf)
  | _, .inl (.sftpPut _ _), conf => (.ok (), conf)
  | _, .inl (.urandom _), conf => ([], conf)
  | _, .inr (.sftpRead _), conf =>
      (if conf.readable then conf.content.elim (.error "No such file") .ok
        else .error "Permission denied", conf)

def listenLine (port : Nat) : Text :=
  "Listen ".toList ++ (toString port).toList

theorem listenLine_eq (port : Nat) :
    listenLine port = 'L' :: ("isten ".toList ++ (toString port).toList) := rfl

theorem isDigit_digits (port : Nat) : ∀ c ∈ (toString port).toList, c.isDigit = true := by
  intro c member
  rw [Nat.toString_eq_ofList_toDigits, String.toList_ofList] at member
  exact Nat.isDigit_of_mem_toDigits (by decide) (by decide) member

theorem digit_range {c : Char} (digit : c.isDigit = true) : 48 ≤ c.toNat ∧ c.toNat ≤ 57 := by
  simp only [Char.isDigit, Bool.and_eq_true, decide_eq_true_eq] at digit
  exact ⟨UInt32.le_iff_toNat_le.mp digit.1, UInt32.le_iff_toNat_le.mp digit.2⟩

theorem digit_visible {c : Char} (digit : c.isDigit = true) :
    isConfigSpace c = false ∧ isLineBreak c = false := by
  have range := digit_range digit
  have not_blank : c ≠ ' ' := by
    rintro rfl
    exact absurd digit (by decide)
  constructor
  · simp only [isConfigSpace, not_blank, decide_false, Bool.false_or, Bool.and_eq_false_imp,
      decide_eq_true_eq, decide_eq_false_iff_not]
    omega
  · simp only [isLineBreak]
    simp
    omega

theorem listenLine_chars (port : Nat) : ∀ c ∈ listenLine port, isLineBreak c = false := by
  intro c member
  have name : ∀ c ∈ "Listen ".toList, isLineBreak c = false := by simp [isLineBreak]
  rcases List.mem_append.mp member with named | digit
  · exact name c named
  · exact (digit_visible (isDigit_digits port c digit)).2

theorem plain_listenLine (port : Nat) : Plain (listenLine port) := by
  obtain ⟨digits, last, same⟩ := (List.eq_nil_or_concat (toString port).toList).resolve_left
    (digits_ne_nil port)
  rw [List.concat_eq_append] at same
  have digit : last.isDigit = true := by
    refine isDigit_digits port last ?_
    rw [same]
    exact List.mem_append_right digits (List.mem_singleton_self last)
  have starts : (listenLine port).head? = some 'L' := by
    rw [listenLine_eq, List.head?_cons]
  have first : isConfigSpace 'L' = false ∧ 'L' ≠ '#' ∧ 'L' ≠ '<' := by decide
  have ends : (listenLine port).getLast? = some last := by
    rw [listenLine_eq, same, ← List.append_assoc, ← List.cons_append, List.getLast?_concat]
  have whole : '\n' ∉ listenLine port := by
    intro member
    exact absurd (listenLine_chars port '\n' member) (by decide)
  exact ⟨⟨'L', starts, first⟩, ⟨last, ends, (digit_visible digit).1⟩, whole⟩

theorem portOf_digits (port : Nat) : portOf (toString port).toList = some port := by
  have all := isDigit_digits port
  have front : (toString port).toList.rdropWhile Char.isDigit = [] :=
    (List.rdropWhile_eq_nil_iff (p := Char.isDigit)).mpr all
  have digits : (toString port).toList.rtakeWhile Char.isDigit = (toString port).toList :=
    (List.rtakeWhile_eq_self_iff (p := Char.isDigit)).mpr all
  rw [portOf, front, digits, if_pos ⟨digits_ne_nil port, .inl rfl⟩, decimalNumber_digits]

theorem configWords_listenLine (port : Nat) :
    configWords (listenLine port) = ["Listen".toList, (toString port).toList] := by
  have blank : listenLine port = "Listen".toList ++ ' ' :: (toString port).toList := rfl
  rw [configWords, blank, List.splitOnP_append_cons _ _ (by decide),
    List.splitOnP_eq_singleton fun c member => (digit_visible (isDigit_digits port c member)).1,
    List.splitOnP_eq_singleton (by simp [isConfigSpace])]
  have some_digits := digits_ne_nil port
  generalize (toString port).toList = digits at some_digits ⊢
  simp [some_digits]

-- In the sections that are entered, the added line binds its port.
theorem binds_listenLine (active : Bool) (port : Nat) :
    (Directive.mk active (listenLine port)).binds port = active := by
  have address := portOf_digits port
  rw [Directive.binds, configWords_listenLine]
  generalize (toString port).toList = digits at address ⊢
  simp [address]

section Run

variable {policy : Policy} {env : Option String} {host : RemoteHost} {output : Script → Output}
  {port : Nat} {conf after : PortsConf}

def PortsConf.seen (conf : PortsConf) : Text :=
  if conf.readable then Utf8.lossy conf.bytes else []

theorem execute_readCurrent :
    (readCurrent host).execute (confStep policy env output) conf = (.returned conf.seen, conf) := by
  obtain ⟨content, readable⟩ := conf
  cases readable with
  | false => rfl
  | true =>
    cases content with
    | none => rfl
    | some bytes => rfl

theorem execute_listed (listed : lists port conf.seen = true) :
    (ensureListenPort host port).execute (confStep policy env output) conf = (.returned (), conf) := by
  rw [ensureListenPort, Prog.bind_eq, execute_bind execute_readCurrent, if_pos listed]
  rfl

def Succeeds (policy : Policy) (output : Script → Output) (port : Nat) (mode : SudoMode)
    (stdin : Option String) : Prop :=
  policy.authorises mode stdin = true ∧
    (output (.elevated mode (appendListen port))).exitStatus = 0

def Appends (policy : Policy) (env : Option String) (output : Script → Output) (port : Nat) : Prop :=
  Succeeds policy output port .nonInteractive none ∨
    (env.getD "" ≠ "" ∧ Succeeds policy output port .readPassword (some (env.getD "" ++ "\n")))

theorem performs_append (script : Script) :
    perform output script (.runs .root (appendListen port).head) conf =
      (output script, if (output script).exitStatus = 0 then conf.append (listenLine port ++ ['\n'])
        else conf) := by
  have quoted : (toString port ++ "\"").toList.dropLast = (toString port).toList := by
    rw [String.toList_append]
    exact List.dropLast_concat
  have runs : perform output script (.runs .root (appendListen port).head) conf =
      if (output script).exitStatus = 0 ∧ s!"{portsConf}'" = s!"{portsConf}'" then
        (output script,
          conf.append ("Listen ".toList ++ (toString port ++ "\"").toList.dropLast ++ ['\n']))
      else (output script, conf) := rfl
  have line : "Listen ".toList ++ (toString port).toList = listenLine port := rfl
  rw [runs, quoted, line]
  by_cases good : (output script).exitStatus = 0
  · simp [good]
  · simp [good]

theorem ran_append (policy : Policy) (output : Script → Output) (port : Nat) (conf : PortsConf)
    (mode : SudoMode) (stdin : Option String) :
    let script := Script.elevated mode (appendListen port)
    let ran := script.run (perform output script) policy stdin conf
    (ran.output.exitStatus = 0 → Succeeds policy output port mode stdin ∧
      ran.world = conf.append (listenLine port ++ ['\n'])) ∧
    (ran.output.exitStatus ≠ 0 → ¬ Succeeds policy output port mode stdin ∧ ran.world = conf) := by
  intro script ran
  have attempted : ran = if policy.authorises mode stdin then
      launch (perform output script) .root (appendListen port).head conf
      else ⟨refusal (appendListen port).head, [], conf⟩ :=
    runElevated_single (perform output script) (single_program _) _ conf
  rw [attempted, Succeeds]
  by_cases authorised : policy.authorises mode stdin = true
  · rw [if_pos authorised, launch, performs_append]
    by_cases good : (output script).exitStatus = 0
    · simp [good, authorised, script] at good ⊢
    · simp [good, authorised, script] at good ⊢
  · rw [if_neg authorised]
    simp [refusal, authorised]

-- Where the scan misses the port the line is appended, or the call raises.
theorem execute_unlisted (host : RemoteHost) (policy : Policy) (env : Option String)
    (output : Script → Output) (listed : lists port conf.seen = false) :
    (Appends policy env output port ∧
      (ensureListenPort host port).execute (confStep policy env output) conf =
        (.returned (), conf.append (listenLine port ++ ['\n']))) ∨
    (¬ Appends policy env output port ∧ ∃ error,
      (ensureListenPort host port).execute (confStep policy env output) conf =
        (.raised error, conf)) := by
  obtain ⟨appended, missed⟩ := ran_append policy output port conf .nonInteractive none
  obtain ⟨added, failed⟩ := ran_append policy output port conf .readPassword
    (some (env.getD "" ++ "\n"))
  have ends := execute_sudo_ends (fun op => confStep policy env output (.inl op)) env
    (appendListen port)
    (fun mode stdin conf =>
      let script := Script.elevated mode (appendListen port)
      let ran := script.run (perform output script) policy stdin conf
      (ran.output, ran.world))
    host none (fun _ _ _ _ => rfl) (fun _ => rfl) conf
  rw [ensureListenPort, Prog.bind_eq, execute_bind execute_readCurrent,
    if_neg (by rw [listed]; exact Bool.false_ne_true), Prog.bind_eq, Appends]
  dsimp only at ends
  rcases ends with ⟨good, result, ended⟩ | ⟨bad, empty, error, ended⟩ |
    ⟨bad, supplied, good, result, ended⟩ | ⟨bad, supplied, worse, error, ended⟩
  · obtain ⟨once, world⟩ := appended good
    rw [execute_bind ((execute_liftLeft _ _).trans ended), world]
    exact .inl ⟨.inl once, rfl⟩
  · obtain ⟨never, world⟩ := missed bad
    rw [execute_bind_raised ((execute_liftLeft _ _).trans ended), world]
    exact .inr ⟨by tauto, error, rfl⟩
  · rw [(missed bad).2] at good ended
    obtain ⟨twice, world⟩ := added good
    rw [execute_bind ((execute_liftLeft _ _).trans ended), world]
    exact .inl ⟨.inr ⟨supplied, twice⟩, rfl⟩
  · obtain ⟨never, same⟩ := missed bad
    rw [same] at worse ended
    obtain ⟨again, world⟩ := failed worse
    rw [execute_bind_raised ((execute_liftLeft _ _).trans ended), world]
    exact .inr ⟨by tauto, error, rfl⟩

end Run

section Ensured

variable (enters : Text → Bool) (policy : Policy) (env : Option String) (host : RemoteHost)
  (port : Nat)

def PortsConf.directives (conf : PortsConf) : List Directive :=
  Apache.directives enters [] (configLines (conf.bytes.map configChar))

/-- Exactly one directive binds the port, those of before are still there, and a second call
changes nothing, however its commands would end. -/
structure Ensured (before after : PortsConf) : Prop where
  bound : (after.directives enters).countP (Directive.binds port) = 1
  kept : (before.directives enters).Sublist (after.directives enters)
  steady : ∀ output : Script → Output,
    ((ensureListenPort host port).execute (confStep policy env output) after).2 = after

def PortsConf.binders (conf : PortsConf) : Nat :=
  (conf.directives enters).countP (Directive.binds port)

/-- The scan finds the port and one directive binds it; or it does not, the file ends in a
blank line, or in a comment line, where the added line is a directive of its own or none, and
with it one directive binds the port and a line of the scan names it. -/
def Fits (conf : PortsConf) : Prop :=
  let text := conf.bytes.map configChar
  conf.readable = true ∧
    ((lists port conf.seen = true ∧ conf.binders enters port = 1) ∨
      (lists port conf.seen = false ∧
        listedPort? ((cutLinesFrom [] conf.seen).2 ++ listenLine port) =
          some (toString port).toList ∧
        ((lastLine text = [] ∧ conf.binders enters port +
            (if (openSections enters (configLines text)).all id then 1 else 0) = 1) ∨
          ((lastLine text).head? = some '#' ∧ conf.binders enters port = 1))))

variable {enters policy env host port} {before after : PortsConf}

theorem line_ascii (port : Nat) : ∀ c ∈ listenLine port ++ ['\n'], c.toNat < 0x80 := by
  have name : ∀ c ∈ "Listen ".toList, c.toNat < 0x80 := by simp
  intro c member
  rcases List.mem_append.mp member with line | last
  · rcases List.mem_append.mp line with named | digit
    · exact name c named
    · have range := digit_range (isDigit_digits port c digit)
      omega
  · rw [List.mem_singleton.mp last]
    decide

theorem seen_append (conf : PortsConf) (readable : conf.readable = true) :
    (conf.append (listenLine port ++ ['\n'])).seen =
      conf.seen ++ (listenLine port ++ ['\n']) := by
  have ascii : ∀ byte ∈ Utf8.encode (listenLine port ++ ['\n']), byte.toNat < 0x80 := by
    intro byte member
    rw [Utf8.encode_ascii (line_ascii port)] at member
    obtain ⟨c, here, rfl⟩ := List.mem_map.mp member
    have small := line_ascii port c here
    rw [UInt8.toNat_ofNat']
    omega
  have bytes : (conf.append (listenLine port ++ ['\n'])).bytes =
      conf.bytes ++ Utf8.encode (listenLine port ++ ['\n']) := rfl
  have still : (conf.append (listenLine port ++ ['\n'])).readable = true := readable
  rw [PortsConf.seen, if_pos still, bytes, Utf8.lossy_append_ascii _ ascii, Utf8.lossy_encode,
    PortsConf.seen, if_pos readable]

-- The scan of the longer file goes by the line that was unfinished.
theorem lists_append (unlisted : lists port before.seen = false) (readable : before.readable = true) :
    lists port (before.append (listenLine port ++ ['\n'])).seen =
      (listedPort? ((cutLinesFrom [] before.seen).2 ++ listenLine port) ==
        some (toString port).toList) := by
  have some_line : listenLine port ≠ [] := by
    rw [listenLine_eq]
    exact List.cons_ne_nil _ _
  rw [lists, splitLines, splitLinesFrom_eq, List.any_append, Bool.or_eq_false_iff] at unlisted
  rw [seen_append before readable, lists, splitLines,
    splitLinesFrom_append before.seen some_line (listenLine_chars port) [], List.any_append,
    unlisted.1]
  simp

theorem append_directives (conf : PortsConf) :
    (conf.append (listenLine port ++ ['\n'])).directives enters =
      directives enters [] (configLines (conf.bytes.map configChar ++ (listenLine port ++ ['\n']))) := by
  have line : (Utf8.encode (listenLine port ++ ['\n'])).map configChar = listenLine port ++ ['\n'] := by
    rw [Utf8.encode_ascii (line_ascii port), List.map_map]
    have same : ∀ c ∈ listenLine port ++ ['\n'],
        (configChar ∘ fun c => UInt8.ofNat c.toNat) c = id c := by
      intro c member
      have small := line_ascii port c member
      rw [Function.comp_apply, configChar, UInt8.toNat_ofNat', Nat.mod_eq_of_lt (by omega),
        Char.ofNat_toNat, id]
    exact (List.map_congr_left same).trans (List.map_id _)
  have bytes : (conf.append (listenLine port ++ ['\n'])).bytes =
      conf.bytes ++ Utf8.encode (listenLine port ++ ['\n']) := rfl
  rw [PortsConf.directives, bytes, List.map_append, line]

theorem append_ne (conf : PortsConf) : conf.append (listenLine port ++ ['\n']) ≠ conf := by
  intro same
  have bytes := congrArg (List.length ∘ PortsConf.bytes) same
  have longer : (conf.append (listenLine port ++ ['\n'])).bytes =
      conf.bytes ++ Utf8.encode (listenLine port ++ ['\n']) := rfl
  rw [Function.comp_apply, longer, List.length_append, Utf8.encode_ascii (line_ascii port)] at bytes
  simp at bytes

-- Once a call has appended, a second call changes nothing exactly where its scan finds the port.
theorem steady_iff (host : RemoteHost) {output : Script → Output}
    (appends : Appends policy env output port) (conf : PortsConf) :
    (∀ output : Script → Output,
      ((ensureListenPort host port).execute (confStep policy env output) conf).2 = conf) ↔
      lists port conf.seen = true := by
  constructor
  · intro steady
    by_contra unlisted
    rcases execute_unlisted host policy env output (Bool.not_eq_true _ ▸ unlisted) with
      ⟨-, appended⟩ | ⟨fails, -⟩
    · have same := steady output
      rw [appended] at same
      exact append_ne conf same
    · exact fails appends
  · intro listed output
    rw [execute_listed listed]

-- The directives that bind the port in the longer file, where the old ones are kept.
theorem append_binders (enters : Text → Bool) (port : Nat) (conf : PortsConf) :
    let text := conf.bytes.map configChar
    let longer := conf.append (listenLine port ++ ['\n'])
    (lastLine text = [] → (conf.directives enters).Sublist (longer.directives enters) ∧
      longer.binders enters port = conf.binders enters port +
        (if (openSections enters (configLines text)).all id then 1 else 0)) ∧
    ((lastLine text).head? = some '#' → (conf.directives enters).Sublist (longer.directives enters) ∧
      longer.binders enters port = conf.binders enters port) ∧
    (isDirective (lastLine text) = true →
      ¬ (conf.directives enters).Sublist (longer.directives enters)) := by
  intro text longer
  have plain := plain_listenLine port
  have same : longer.directives enters =
      directives enters [] (configLines (text ++ (listenLine port ++ ['\n']))) :=
    append_directives conf
  rw [PortsConf.binders, PortsConf.binders, same]
  refine ⟨fun blank => ?_, fun comment => ?_, fun cut => ?_⟩
  · rw [directives_blank plain blank, List.countP_append, List.countP_singleton, binds_listenLine]
    exact ⟨List.sublist_append_left _ _, rfl⟩
  · rw [directives_comment plain comment]
    exact ⟨List.Sublist.refl _, rfl⟩
  · exact directives_spoiled plain cut

/-- In every run that returns, the port is ensured exactly where the file fits. -/
theorem ensured_iff {output : Script → Output}
    (returned : (ensureListenPort host port).execute (confStep policy env output) before =
      (.returned (), after)) :
    Ensured enters policy env host port before after ↔ Fits enters port before := by
  cases listed : lists port before.seen with
  | true =>
    obtain rfl : before = after := by
      rw [execute_listed listed] at returned
      exact (Prod.mk.inj returned).2
    have readable : before.readable = true := by
      by_contra hidden
      rw [PortsConf.seen, if_neg hidden] at listed
      cases listed
    constructor
    · intro ensured
      exact ⟨readable, .inl ⟨listed, ensured.bound⟩⟩
    · rintro ⟨-, ⟨-, one⟩ | ⟨missed, -⟩⟩
      · exact ⟨one, List.Sublist.refl _, fun output => by rw [execute_listed listed]⟩
      · rw [listed] at missed
        cases missed
  | false =>
    rcases execute_unlisted host policy env output listed with
      ⟨appends, appended⟩ | ⟨-, error, raised⟩
    · obtain rfl : before.append (listenLine port ++ ['\n']) = after := by
        rw [appended] at returned
        exact (Prod.mk.inj returned).2
      obtain ⟨blank, comment, cut⟩ := append_binders enters port before
      have steady := steady_iff host appends (before.append (listenLine port ++ ['\n']))
      constructor
      · intro ensured
        have again := steady.mp ensured.steady
        have readable : before.readable = true := by
          by_contra hidden
          rw [PortsConf.seen, if_neg (show ¬ (before.append _).readable = true from hidden)] at again
          cases again
        rw [lists_append listed readable, beq_iff_eq] at again
        refine ⟨readable, .inr ⟨listed, again, ?_⟩⟩
        by_cases none : lastLine (before.bytes.map configChar) = []
        · exact .inl ⟨none, (blank none).2 ▸ ensured.bound⟩
        · by_cases noted : (lastLine (before.bytes.map configChar)).head? = some '#'
          · exact .inr ⟨noted, (comment noted).2 ▸ ensured.bound⟩
          · have directive : isDirective (lastLine (before.bytes.map configChar)) = true := by
              simp [isDirective, none, noted]
            exact absurd ensured.kept (cut directive)
      · rintro ⟨readable, ⟨missed, -⟩ | ⟨-, names, ends⟩⟩
        · rw [listed] at missed
          cases missed
        · have again := steady.mpr (by rw [lists_append listed readable, names, beq_self_eq_true])
          rcases ends with ⟨none, one⟩ | ⟨noted, one⟩
          · exact ⟨(blank none).2.trans one, (blank none).1, again⟩
          · exact ⟨(comment noted).2.trans one, (comment noted).1, again⟩
    · rw [raised] at returned
      cases returned

def succeeding : Script → Output :=
  fun _ => ⟨0, "", ""⟩

def stockPorts : PortsConf where
  content := some (Utf8.encode
    "Listen 80\n\n<IfModule ssl_module>\n\tListen 443\n</IfModule>\n".toList)
  readable := true

/-- The port of the balancer is added to the stock file, where the TLS module is off. -/
theorem stock_ports_ensured :
    Ensured (fun _ => false) .passwordless none exampleHost 8080 stockPorts
      (stockPorts.append (listenLine 8080 ++ ['\n'])) :=
  (ensured_iff (show (ensureListenPort exampleHost 8080).execute
      (confStep .passwordless none succeeding) stockPorts = _ by decide +kernel)).mpr
    (by unfold Fits; decide +kernel)

/-- A file where another directive that begins with `Listen` has the port as its argument. -/
def backlogOnly : PortsConf where
  content := some (Utf8.encode "ListenBacklog 8080\n".toList)
  readable := true

/-- The scan takes `ListenBacklog` for `Listen`: the call returns, and nothing binds the port. -/
theorem backlog_taken_for_listen :
    (ensureListenPort exampleHost 8080).execute (confStep .passwordless none succeeding) backlogOnly =
        (.returned (), backlogOnly) ∧
      ¬ Ensured (fun _ => true) .passwordless none exampleHost 8080 backlogOnly backlogOnly := by
  refine ⟨rfl, ?_⟩
  rintro ⟨bound, -, -⟩
  revert bound
  decide

end Ensured

end VmDeploy.Apache
