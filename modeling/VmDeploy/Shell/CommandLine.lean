import Mathlib.Data.List.Basic

/-! Command lines of a POSIX shell: simple commands joined by `&&`, `||`, `;` and
`|`, and what becomes of a line when `sudo` is written in front of its text.

What a command does is a parameter. A line is run by a shell of one privilege,
and every execution lists the actions it took with the privilege of each. -/

set_option autoImplicit false

namespace Shell

inductive Redirection where
  | discardErrors
  | file (operator target : String)
  deriving DecidableEq, Repr

def Redirection.text : Redirection → String
  | .discardErrors => "2>/dev/null"
  | .file operator target => operator ++ " " ++ target

/-- What stands at the head of a command: a program, a builtin of the shell, or a
compound command with its own grammar, such as a loop or a group. -/
inductive Kind where
  | program
  | builtin
  | compound
  deriving DecidableEq, Repr

/-- A command without connectives; words are kept as they are written. -/
structure Simple where
  kind : Kind
  words : List String
  redirections : List Redirection
  deriving DecidableEq, Repr

def Simple.text (command : Simple) : String :=
  " ".intercalate (command.words ++ command.redirections.map Redirection.text)

def Simple.touchesFiles (command : Simple) : Bool :=
  command.redirections.any (· ≠ .discardErrors)

inductive Connective where
  | andIf
  | orIf
  | next
  | pipe
  deriving DecidableEq, Repr

def Connective.text : Connective → String
  | .andIf => " && "
  | .orIf => " || "
  | .next => "; "
  | .pipe => " | "

abbrev Tail := List (Connective × Simple)

def Tail.text (tail : Tail) : String :=
  String.join (tail.map fun part => part.1.text ++ part.2.text)

structure Line where
  head : Simple
  tail : Tail
  deriving DecidableEq, Repr

def Line.text (line : Line) : String :=
  line.head.text ++ line.tail.text

structure Output where
  exitStatus : Nat
  stdout : String
  stderr : String
  deriving DecidableEq, Repr

inductive Privilege where
  | user
  | root
  deriving DecidableEq, Repr

inductive Event where
  | opens (who : Privilege) (command : Simple)
  | runs (who : Privilege) (command : Simple)
  deriving DecidableEq, Repr

def Event.who : Event → Privilege
  | .opens who _ => who
  | .runs who _ => who

abbrev Perform (W : Type) := Event → W → Output × W

structure Ran (W : Type) where
  output : Output
  events : List Event
  world : W

variable {W : Type} (perform : Perform W)

def launch (who : Privilege) (command : Simple) (w : W) : Ran W :=
  let result := perform (.runs who command) w
  ⟨result.1, [.runs who command], result.2⟩

/-- A shell opens the files of a command first, and stops there if that fails. -/
def opening (shell : Privilege) (command : Simple) (body : W → Ran W) (w : W) : Ran W :=
  if command.touchesFiles then
    let opened := perform (.opens shell command) w
    if opened.1.exitStatus = 0 then
      let ran := body opened.2
      ⟨ran.output, .opens shell command :: ran.events, ran.world⟩
    else
      ⟨opened.1, [.opens shell command], opened.2⟩
  else
    body w

def Simple.run (who : Privilege) (command : Simple) (w : W) : Ran W :=
  opening perform who command (launch perform who command) w

/-- Whether the next command runs, given the last exit status and whether the
command just before it ran. -/
def Connective.continues (status : Nat) (ran : Bool) : Connective → Bool
  | .andIf => status == 0
  | .orIf => status != 0
  | .next => true
  | .pipe => ran

structure Progress (W : Type) where
  status : Nat
  ran : Bool
  earlier : String
  stdout : String
  stderr : String
  events : List Event
  world : W

def Progress.start (head : Ran W) : Progress W where
  status := head.output.exitStatus
  ran := true
  earlier := ""
  stdout := head.output.stdout
  stderr := head.output.stderr
  events := head.events
  world := head.world

/-- Only the last command of a pipeline keeps its standard output. -/
def Progress.advance (who : Privilege) (progress : Progress W) (part : Connective × Simple) :
    Progress W :=
  if part.1.continues progress.status progress.ran then
    let ran := part.2.run perform who progress.world
    { status := ran.output.exitStatus
      ran := true
      earlier := if part.1 = .pipe then progress.earlier else progress.earlier ++ progress.stdout
      stdout := ran.output.stdout
      stderr := progress.stderr ++ ran.output.stderr
      events := progress.events ++ ran.events
      world := ran.world }
  else
    { progress with ran := false }

def Progress.finish (progress : Progress W) : Ran W :=
  ⟨⟨progress.status, progress.earlier ++ progress.stdout, progress.stderr⟩,
    progress.events, progress.world⟩

def Tail.run (who : Privilege) (tail : Tail) (head : Ran W) : Ran W :=
  (tail.foldl (Progress.advance perform who) (.start head)).finish

def Line.run (who : Privilege) (line : Line) (w : W) : Ran W :=
  Tail.run perform who line.tail (line.head.run perform who w)

def Tail.skipped (status : Nat) (ran : Bool) : Tail → Bool
  | [] => true
  | (connective, _) :: rest =>
      !connective.continues status ran && Tail.skipped status false rest

/-- The two ways `sudo` is called: never asking, or reading the password from its
standard input. -/
inductive SudoMode where
  | nonInteractive
  | readPassword
  deriving DecidableEq, Repr

def SudoMode.text : SudoMode → String
  | .nonInteractive => "sudo -n "
  | .readPassword => "sudo -S -p '' "

/-- What the sudo policy asks of the login account. -/
inductive Policy where
  | passwordless
  | password (secret : String)
  deriving DecidableEq, Repr

def Policy.authorises (mode : SudoMode) (stdin : Option String) : Policy → Bool
  | .passwordless => true
  | .password secret => mode == .readPassword && stdin == some (secret ++ "\n")

def Simple.errors (command : Simple) (message : String) : String :=
  if Redirection.discardErrors ∈ command.redirections then "" else message

def refusal (command : Simple) : Output :=
  ⟨1, "", command.errors "sudo: a password is required\n"⟩

def commandNotFound (command : Simple) : Output :=
  let name := command.words.headD ""
  ⟨1, "", command.errors s!"sudo: {name}: command not found\n"⟩

def syntaxError : Output :=
  ⟨2, "", "syntax error\n"⟩

/-- What `sudo` itself does with the words of a command. -/
def sudoHead (authorised : Bool) (command : Simple) (w : W) : Ran W :=
  if !authorised then ⟨refusal command, [], w⟩
  else if command.kind = .program then launch perform .root command w
  else ⟨commandNotFound command, [], w⟩

/-- The line with `sudo` written in front: it takes the words of the head, while
the shell keeps the redirections and the rest of the line. In front of a compound
command the line is not one of the grammar, and nothing of it runs. -/
def Line.runElevated (authorised : Bool) (line : Line) (w : W) : Ran W :=
  if line.head.kind = .compound then ⟨syntaxError, [], w⟩
  else
    Tail.run perform .user line.tail
      (opening perform .user line.head (sudoHead perform authorised line.head) w)

/-- What a remote shell is given to run. -/
inductive Script where
  | plain (line : Line)
  | elevated (mode : SudoMode) (line : Line)
  deriving DecidableEq, Repr

def Script.text : Script → String
  | .plain line => line.text
  | .elevated mode line => mode.text ++ line.text

def Script.run (policy : Policy) (stdin : Option String) (w : W) : Script → Ran W
  | .plain line => line.run perform .user w
  | .elevated mode line => line.runElevated perform (policy.authorises mode stdin) w

theorem launch_events (who : Privilege) (command : Simple) (w : W) :
    (launch perform who command w).events = [.runs who command] :=
  rfl

theorem opening_events (shell : Privilege) (command : Simple) (body : W → Ran W) (w : W) :
    (command.touchesFiles = false ∧ opening perform shell command body w = body w) ∨
      (command.touchesFiles = true ∧ ∃ later, ((∃ w', later = (body w').events) ∨ later = []) ∧
        (opening perform shell command body w).events = .opens shell command :: later) := by
  cases touches : command.touchesFiles with
  | false => exact .inl ⟨rfl, by simp [opening, touches]⟩
  | true =>
    refine .inr ⟨rfl, ?_⟩
    by_cases opened : (perform (.opens shell command) w).1.exitStatus = 0
    · refine ⟨(body (perform (.opens shell command) w).2).events, .inl ⟨_, rfl⟩, ?_⟩
      simp [opening, touches, opened]
    · exact ⟨[], .inr rfl, by simp [opening, touches, opened]⟩

theorem simple_events (who : Privilege) (command : Simple) (w : W) :
    (command.run perform who w).events ≠ [] ∧
      ∀ event ∈ (command.run perform who w).events, event.who = who := by
  rcases opening_events perform who command (launch perform who command) w with
    ⟨_, same⟩ | ⟨_, later, from_body, events⟩
  · rw [Simple.run, same, launch_events]
    simp [Event.who]
  · rw [Simple.run, events]
    refine ⟨List.cons_ne_nil _ _, ?_⟩
    intro event member
    rcases List.mem_cons.mp member with rfl | member
    · rfl
    · rcases from_body with ⟨w', rfl⟩ | rfl
      · rw [launch_events, List.mem_singleton] at member
        subst member
        rfl
      · exact nomatch member

theorem foldl_skipped (who : Privilege) (tail : Tail) (progress : Progress W)
    (skipped : tail.skipped progress.status progress.ran = true) :
    ∃ ran, tail.foldl (Progress.advance perform who) progress = { progress with ran := ran } := by
  induction tail generalizing progress with
  | nil => exact ⟨progress.ran, rfl⟩
  | cons part rest ih =>
    obtain ⟨connective, command⟩ := part
    simp only [Tail.skipped, Bool.and_eq_true, Bool.not_eq_true'] at skipped
    obtain ⟨ran, same⟩ := ih { progress with ran := false } skipped.2
    refine ⟨ran, ?_⟩
    rw [List.foldl_cons, Progress.advance, skipped.1]
    exact same

-- A tail that is skipped leaves the result of the head as it is.
theorem tail_skipped (who : Privilege) (tail : Tail) (head : Ran W)
    (skipped : tail.skipped head.output.exitStatus true = true) :
    tail.run perform who head = head := by
  obtain ⟨ran, same⟩ := foldl_skipped perform who tail (.start head) skipped
  rw [Tail.run, same]
  simp [Progress.finish, Progress.start]

theorem foldl_events (who : Privilege) (tail : Tail) (progress : Progress W) :
    ∃ more, (tail.foldl (Progress.advance perform who) progress).events = progress.events ++ more ∧
      (∀ event ∈ more, event.who = who) ∧
      (tail.skipped progress.status progress.ran = false → more ≠ []) := by
  induction tail generalizing progress with
  | nil => exact ⟨[], by simp [Tail.skipped]⟩
  | cons part rest ih =>
    obtain ⟨connective, command⟩ := part
    obtain ⟨more, events, all, some⟩ := ih (progress.advance perform who (connective, command))
    rw [List.foldl_cons, events]
    cases continues : connective.continues progress.status progress.ran with
    | true =>
      obtain ⟨nonempty, own⟩ := simple_events perform who command progress.world
      refine ⟨(command.run perform who progress.world).events ++ more, ?_, ?_, ?_⟩
      · simp [Progress.advance, continues]
      · intro event member
        rcases List.mem_append.mp member with member | member
        · exact own event member
        · exact all event member
      · exact fun _ empty => nonempty (List.append_eq_nil_iff.mp empty).1
    | false =>
      refine ⟨more, by simp [Progress.advance, continues], all, ?_⟩
      intro ran
      apply some
      simpa [Progress.advance, continues, Tail.skipped] using ran

-- The tail adds actions of its own shell, and adds some unless it is skipped.
theorem tail_events (who : Privilege) (tail : Tail) (head : Ran W) :
    ∃ more, (tail.run perform who head).events = head.events ++ more ∧
      (∀ event ∈ more, event.who = who) ∧
      (tail.skipped head.output.exitStatus true = false → more ≠ []) :=
  foldl_events perform who tail (.start head)

-- When `first && second` exits with zero, both ran and exited with zero.
theorem run_andIf {first second : Simple} (plain : first.touchesFiles = false)
    (clean : second.touchesFiles = false) (who : Privilege) (w : W)
    (good : (Line.run perform who ⟨first, [(.andIf, second)]⟩ w).output.exitStatus = 0) :
    let middle := perform (.runs who first) w
    let last := perform (.runs who second) middle.2
    middle.1.exitStatus = 0 ∧ last.1.exitStatus = 0 ∧
      (Line.run perform who ⟨first, [(.andIf, second)]⟩ w).world = last.2 := by
  by_cases status : (perform (.runs who first) w).1.exitStatus = 0
  · simp only [Line.run, Tail.run, Simple.run, opening, plain, clean, launch, Progress.start,
      Progress.advance, Progress.finish, Connective.continues, status, List.foldl_cons,
      List.foldl_nil, Bool.false_eq_true, if_false, beq_self_eq_true, if_true] at good ⊢
    exact ⟨trivial, good, trivial⟩
  · simp only [Line.run, Tail.run, Simple.run, opening, plain, launch, Progress.start,
      Progress.advance, Progress.finish, Connective.continues, List.foldl_cons, List.foldl_nil,
      Bool.false_eq_true, if_false, beq_iff_eq, status] at good

def Line.commands (line : Line) : List Simple :=
  line.head :: line.tail.map Prod.snd

def Script.line : Script → Line
  | .plain line => line
  | .elevated _ line => line

section Invariants

variable {perform} {inv : W → Prop}

theorem opening_keeps {shell : Privilege} {command : Simple} {body : W → Ran W}
    (opens : ∀ w, inv w → inv (perform (.opens shell command) w).2)
    (keeps : ∀ w, inv w → inv (body w).world) {w : W} (held : inv w) :
    inv (opening perform shell command body w).world := by
  unfold opening
  split
  · dsimp only
    split
    · exact keeps _ (opens w held)
    · exact opens w held
  · exact keeps w held

theorem tail_keeps {who : Privilege} {tail : Tail}
    (keeps : ∀ part ∈ tail, ∀ w, inv w → inv (part.2.run perform who w).world) {head : Ran W}
    (held : inv head.world) : inv (tail.run perform who head).world := by
  suffices folded : ∀ progress : Progress W, inv progress.world →
      inv (tail.foldl (Progress.advance perform who) progress).world from folded (.start head) held
  induction tail with
  | nil => exact fun _ here => here
  | cons part rest ih =>
    intro progress here
    refine ih (fun later member => keeps later (List.mem_cons_of_mem _ member)) _ ?_
    unfold Progress.advance
    split
    · exact keeps part List.mem_cons_self _ here
    · exact here

section Lines

variable (inv) {line : Line}
  (opens : ∀ who, ∀ command ∈ line.commands, ∀ w, inv w → inv (perform (.opens who command) w).2)
  (runs : ∀ who, ∀ command ∈ line.commands, ∀ w, inv w → inv (perform (.runs who command) w).2)

include opens runs in
theorem line_keeps {w : W} (who : Privilege) (held : inv w) : inv (line.run perform who w).world := by
  have simple : ∀ command ∈ line.commands, ∀ w, inv w → inv (command.run perform who w).world :=
    fun command member w here =>
      opening_keeps (opens who command member) (runs who command member) here
  refine tail_keeps ?_ (simple line.head List.mem_cons_self w held)
  exact fun part member => simple part.2 (List.mem_cons_of_mem _ (List.mem_map_of_mem member))

include opens runs in
-- With `sudo` in front, whether it lets the head through or not.
theorem elevated_keeps {w : W} (authorised : Bool) (held : inv w) :
    inv (line.runElevated perform authorised w).world := by
  rw [Line.runElevated]
  split
  · exact held
  · refine tail_keeps ?_ (opening_keeps (opens .user line.head List.mem_cons_self) ?_ held)
    · intro part member w here
      have listed : part.2 ∈ line.commands := List.mem_cons_of_mem _ (List.mem_map_of_mem member)
      exact opening_keeps (opens .user part.2 listed) (runs .user part.2 listed) here
    · intro w here
      unfold sudoHead
      split
      · exact here
      · split
        · exact runs .root line.head List.mem_cons_self w here
        · exact here

end Lines

-- An invariant of the actions of its commands is an invariant of a script.
theorem script_keeps (inv : W → Prop) {policy : Policy} {stdin : Option String} {script : Script}
    (opens : ∀ who, ∀ command ∈ script.line.commands, ∀ w,
      inv w → inv (perform (.opens who command) w).2)
    (runs : ∀ who, ∀ command ∈ script.line.commands, ∀ w,
      inv w → inv (perform (.runs who command) w).2)
    {w : W} (held : inv w) : inv (script.run perform policy stdin w).world := by
  cases script with
  | plain line => exact line_keeps inv opens runs .user held
  | elevated mode line => exact elevated_keeps inv opens runs _ held

end Invariants

end Shell
