import VmDeploy.Remote.Session

/-! When `RemoteHost.sudo` runs a command line as root, once, and reports that run.

The guest is any behaviour of the actions of a shell, and the transport works. -/

set_option autoImplicit false

open Effects Shell

namespace VmDeploy.Remote

variable {W : Type}

/-- The replies of a guest with this behaviour and policy; actions are recorded. -/
def answers (perform : Perform W) (policy : Policy) (env : Option String) :
    (op : RemoteOp) → W × List Event → op.Reply × W × List Event
  | .exec script stdin _, (w, trace) =>
      let ran := script.run perform policy stdin w
      (.ok ran.output, ran.world, trace ++ ran.events)
  | .getenv name, s => (if name = sudoPasswordEnv then env else none, s)
  | .openSftp, s => (.ok (), s)
  | .sftpWrite _ _, s => (.ok (), s)
  | .sftpPut _ _, s => (.ok (), s)
  | .urandom count, s => (List.replicate count 0, s)

def CommandResult.Reports (result : CommandResult) (output : Output) : Prop :=
  result.exitStatus = output.exitStatus ∧ result.stdout = output.stdout ∧
    result.stderr = output.stderr

/-- An unchecked `sudo` ends in the state of one run of the whole line by root,
takes exactly the actions of that run and returns its result. -/
def RunsOnceAsRoot (perform : Perform W) (policy : Policy) (env : Option String)
    (host : RemoteHost) (line : Line) (timeout : Option Nat) (w : W) : Prop :=
  let ran := line.run perform .root w
  ∃ result : CommandResult,
    (host.sudo line false timeout).execute (answers perform policy env) (w, []) =
        (.returned result, ran.world, ran.events) ∧
      result.Reports ran.output

def headStatus (perform : Perform W) (line : Line) (w : W) : Nat :=
  (perform (.runs .root line.head) w).1.exitStatus

/-- The prefix reaches everything the line would do: its head is a program without
files to open, the rest is skipped by each attempt, and without a password the
head succeeds. -/
def PrefixReaches (perform : Perform W) (policy : Policy) (line : Line) (w : W) : Prop :=
  line.head.kind = .program ∧ line.head.touchesFiles = false ∧
    match policy with
    | .passwordless => headStatus perform line w = 0 ∧ line.tail.skipped 0 true = true
    | .password _ => line.tail.skipped 1 true = true ∧
        line.tail.skipped (headStatus perform line w) true = true

section Attempts

variable (perform : Perform W) (line : Line) (w : W)

theorem elevated_user_events (authorised : Bool)
    (refused : authorised = false ∨ line.head.kind ≠ .program) :
    ∀ event ∈ (line.runElevated perform authorised w).events, event.who = .user := by
  have head : ∀ w', (sudoHead perform authorised line.head w').events = [] := by
    intro w'
    rcases refused with rfl | other
    · rfl
    · cases authorised with
      | false => rfl
      | true => simp [sudoHead, other]
  by_cases compound : line.head.kind = .compound
  · simp [Line.runElevated, compound]
  · rw [Line.runElevated, if_neg compound]
    obtain ⟨more, events, own, _⟩ := tail_events perform .user line.tail
      (opening perform .user line.head (sudoHead perform authorised line.head) w)
    rw [events]
    intro event member
    rcases List.mem_append.mp member with member | member
    · rcases opening_events perform .user line.head (sudoHead perform authorised line.head) w with
        ⟨_, same⟩ | ⟨_, later, body, opened⟩
      · rw [same, head] at member
        exact absurd member List.not_mem_nil
      · rw [opened] at member
        rcases List.mem_cons.mp member with rfl | member
        · rfl
        · rcases body with ⟨w', rfl⟩ | rfl
          · rw [head] at member
            exact absurd member List.not_mem_nil
          · exact absurd member List.not_mem_nil
    · exact own event member

theorem elevated_opens (authorised : Bool) (shell : line.head.kind = .program)
    (touches : line.head.touchesFiles = true) :
    .opens .user line.head ∈ (line.runElevated perform authorised w).events := by
  rw [Line.runElevated, if_neg (by rw [shell]; decide)]
  obtain ⟨more, events, _⟩ := tail_events perform .user line.tail
    (opening perform .user line.head (sudoHead perform authorised line.head) w)
  rcases opening_events perform .user line.head (sudoHead perform authorised line.head) w with
    ⟨none, _⟩ | ⟨_, later, _, opened⟩
  · exact absurd (touches.symm.trans none) (by decide)
  · rw [events, opened]
    exact List.mem_append_left _ (List.mem_cons_self)

variable (shell : line.head.kind = .program) (plain : line.head.touchesFiles = false)

include shell plain in
theorem elevated_program (authorised : Bool) :
    line.runElevated perform authorised w =
      Tail.run perform .user line.tail (sudoHead perform authorised line.head w) := by
  rw [Line.runElevated, if_neg (by rw [shell]; decide)]
  rcases opening_events perform .user line.head (sudoHead perform authorised line.head) w with
    ⟨_, same⟩ | ⟨touches, _⟩
  · rw [same]
  · exact absurd (plain.symm.trans touches) (by decide)

include shell in
theorem sudoHead_authorised : sudoHead perform true line.head w = launch perform .root line.head w := by
  simp [sudoHead, shell]

include plain in
-- When the tail is skipped, a run of the line by root is a run of its head.
theorem run_root (skipped : line.tail.skipped (headStatus perform line w) true = true) :
    line.run perform .root w = launch perform .root line.head w := by
  have head : line.head.run perform .root w = launch perform .root line.head w := by
    rcases opening_events perform .root line.head (launch perform .root line.head) w with
      ⟨_, same⟩ | ⟨touches, _⟩
    · exact same
    · exact absurd (plain.symm.trans touches) (by decide)
  rw [Line.run, head]
  exact tail_skipped perform .root line.tail _ skipped

theorem run_root_events :
    (line.run perform .root w).events ≠ [] ∧
      ∀ event ∈ (line.run perform .root w).events, event.who = .root := by
  obtain ⟨nonempty, own⟩ := simple_events perform .root line.head w
  obtain ⟨more, events, later, _⟩ := tail_events perform .root line.tail
    (line.head.run perform .root w)
  rw [Line.run, events]
  refine ⟨fun empty => nonempty (List.append_eq_nil_iff.mp empty).1, ?_⟩
  intro event member
  rcases List.mem_append.mp member with member | member
  · exact own event member
  · exact later event member

end Attempts

-- The two attempts of an unchecked `sudo`.
theorem execute_sudo (perform : Perform W) (policy : Policy) (env : Option String)
    (host : RemoteHost) (line : Line) (timeout : Option Nat) (w : W) :
    (host.sudo line false timeout).execute (answers perform policy env) (w, []) =
      let first := line.runElevated perform (policy.authorises .nonInteractive none) w
      if first.output.exitStatus = 0 then
        (.returned (.of (Script.elevated .nonInteractive line).text first.output),
          first.world, first.events)
      else if env.getD "" = "" then
        (.raised sudoPassword.missingPassword, first.world, first.events)
      else
        let second := line.runElevated perform
          (policy.authorises .readPassword (some (env.getD "" ++ "\n"))) first.world
        (.returned (.of (Script.elevated .readPassword line).text second.output),
          second.world, first.events ++ second.events) := by
  by_cases good :
      (line.runElevated perform (policy.authorises .nonInteractive none) w).output.exitStatus = 0
  · simp [RemoteHost.sudo, RemoteHost.run, captured, ask, Prog.perform, Prog.bind, Prog.execute,
      answers, Script.run, CommandResult.ok, CommandResult.of, good]
  · cases env with
    | none =>
      simp [RemoteHost.sudo, RemoteHost.run, captured, ask, Prog.perform, Prog.bind, Prog.execute,
        answers, Script.run, CommandResult.ok, CommandResult.of, good, sudoPassword]
    | some password =>
      by_cases empty : password = ""
      · simp [RemoteHost.sudo, RemoteHost.run, captured, ask, Prog.perform, Prog.bind,
          Prog.execute, answers, Script.run, CommandResult.ok, CommandResult.of, good, sudoPassword, empty]
      · simp [RemoteHost.sudo, RemoteHost.run, RemoteHost.sudoWithPassword, captured, ask,
          Prog.perform, Prog.bind, Prog.execute, answers, Script.run, CommandResult.ok, CommandResult.of, good,
          sudoPassword, empty]

theorem empty_of_both {events : List Event} (first : ∀ event ∈ events, event.who = .user)
    (second : ∀ event ∈ events, event.who = .root) : events = [] := by
  refine List.eq_nil_iff_forall_not_mem.mpr ?_
  intro event member
  exact nomatch (first event member).symm.trans (second event member)

section Exactness

variable {perform : Perform W} {policy : Policy} {env : Option String} {host : RemoteHost}
  {line : Line} {timeout : Option Nat} {w : W}

theorem attempts_of_once (once : RunsOnceAsRoot perform policy env host line timeout w) :
    let first := line.runElevated perform (policy.authorises .nonInteractive none) w
    let second := line.runElevated perform
      (policy.authorises .readPassword (some (env.getD "" ++ "\n"))) first.world
    (first.output.exitStatus = 0 ∧ first.events = (line.run perform .root w).events) ∨
      (first.output.exitStatus ≠ 0 ∧
        first.events ++ second.events = (line.run perform .root w).events) := by
  obtain ⟨result, same, _⟩ := once
  rw [execute_sudo] at same
  dsimp only at same ⊢
  split at same
  · next good => exact .inl ⟨good, (Prod.mk.inj (Prod.mk.inj same).2).2⟩
  · next bad =>
    split at same
    · cases (Prod.mk.inj same).1
    · exact .inr ⟨bad, (Prod.mk.inj (Prod.mk.inj same).2).2⟩

-- An elevated attempt that only root acted in ran the head alone.
theorem elevated_skips (authorised : Bool) (shell : line.head.kind = .program)
    (plain : line.head.touchesFiles = false)
    (own : ∀ event ∈ (line.runElevated perform authorised w).events, event.who = .root) :
    line.tail.skipped (sudoHead perform authorised line.head w).output.exitStatus true = true ∧
      line.runElevated perform authorised w = sudoHead perform authorised line.head w := by
  rw [elevated_program perform line w shell plain] at own ⊢
  obtain ⟨more, events, later, some⟩ := tail_events perform .user line.tail
    (sudoHead perform authorised line.head w)
  have none : more = [] :=
    empty_of_both later (fun event member => own event (events ▸ List.mem_append_right _ member))
  have skipped : line.tail.skipped (sudoHead perform authorised line.head w).output.exitStatus true
      = true := by
    by_contra runs
    exact some (Bool.eq_false_iff.mpr runs) none
  exact ⟨skipped, tail_skipped perform .user line.tail _ skipped⟩

theorem prefixReaches_of_once (supplied : Supplied env policy)
    (once : RunsOnceAsRoot perform policy env host line timeout w) :
    PrefixReaches perform policy line w := by
  obtain ⟨nonempty, root⟩ := run_root_events perform line w
  have attempts := attempts_of_once once
  dsimp only at attempts
  have rootFirst : ∀ event ∈ (line.runElevated perform
      (policy.authorises .nonInteractive none) w).events, event.who = .root := by
    intro event member
    rcases attempts with ⟨_, same⟩ | ⟨_, same⟩
    · exact root event (same ▸ member)
    · exact root event (same ▸ List.mem_append_left _ member)
  have shell : line.head.kind = .program := by
    by_contra other
    have none : ∀ authorised w', (∀ event ∈ (line.runElevated perform authorised w').events,
        event.who = .root) → (line.runElevated perform authorised w').events = [] :=
      fun authorised w' => empty_of_both (elevated_user_events perform line w' authorised (.inr other))
    rcases attempts with ⟨_, same⟩ | ⟨_, same⟩
    · exact nonempty (same ▸ none _ _ rootFirst)
    · have rootSecond := fun event member =>
        root event (same ▸ List.mem_append_right _ member)
      exact nonempty (by rw [← same, none _ _ rootFirst, none _ _ rootSecond]; rfl)
  have plain : line.head.touchesFiles = false := by
    by_contra touches
    have opened := elevated_opens perform line w (policy.authorises .nonInteractive none) shell
      (Bool.not_eq_false _ |>.mp touches)
    exact nomatch rootFirst _ opened
  obtain ⟨skipped, first⟩ := elevated_skips _ shell plain rootFirst
  refine ⟨shell, plain, ?_⟩
  cases policy with
  | passwordless =>
    simp only [Policy.authorises] at attempts skipped first
    rw [sudoHead_authorised perform line w shell] at skipped first
    rw [first] at attempts
    have status : headStatus perform line w = 0 := by
      rcases attempts with ⟨good, _⟩ | ⟨_, same⟩
      · exact good
      · rw [run_root perform line w plain skipped] at same
        have again : (line.runElevated perform true
            (launch perform .root line.head w).world).events = [] :=
          List.append_right_eq_self.mp same
        rw [elevated_program perform line _ shell plain,
          sudoHead_authorised perform line _ shell] at again
        obtain ⟨more, events, _⟩ := tail_events perform .user line.tail
          (launch perform .root line.head (launch perform .root line.head w).world)
        rw [events] at again
        exact nomatch (List.append_eq_nil_iff.mp again).1
    exact ⟨status, status ▸ skipped⟩
  | password secret =>
    obtain ⟨_, rfl⟩ := supplied
    have refused : sudoHead perform false line.head w = ⟨refusal line.head, [], w⟩ := rfl
    have denied : (Policy.password secret).authorises .nonInteractive none = false := rfl
    have granted : (Policy.password secret).authorises .readPassword
        (some ((some secret).getD "" ++ "\n")) = true := by simp [Policy.authorises]
    rw [denied, refused] at skipped first
    rw [denied, granted, first] at attempts
    rcases attempts with ⟨good, _⟩ | ⟨_, same⟩
    · exact nomatch good
    · have rootSecond : ∀ event ∈ (line.runElevated perform true w).events, event.who = .root :=
        fun event member => root event (same ▸ member)
      obtain ⟨last, _⟩ := elevated_skips true shell plain rootSecond
      rw [sudoHead_authorised perform line w shell] at last
      exact ⟨skipped, last⟩

theorem once_of_prefixReaches (supplied : Supplied env policy)
    (reaches : PrefixReaches perform policy line w) :
    RunsOnceAsRoot perform policy env host line timeout w := by
  obtain ⟨shell, plain, reached⟩ := reaches
  cases policy with
  | passwordless =>
    obtain ⟨status, skipped⟩ := reached
    have first : line.runElevated perform true w = launch perform .root line.head w := by
      rw [elevated_program perform line w shell plain, sudoHead_authorised perform line w shell]
      exact tail_skipped perform .user line.tail _ (by rw [← status] at skipped; exact skipped)
    have whole := run_root perform line w plain (by rw [status]; exact skipped)
    refine ⟨.of (Script.elevated .nonInteractive line).text
      (launch perform .root line.head w).output, ?_, ?_⟩
    · rw [execute_sudo, whole]
      simp only [Policy.authorises, first]
      exact if_pos status
    · rw [whole]
      exact ⟨rfl, rfl, rfl⟩
  | password secret =>
    obtain ⟨some_secret, rfl⟩ := supplied
    obtain ⟨skipped, last⟩ := reached
    have denied : (Policy.password secret).authorises .nonInteractive none = false := rfl
    have granted : (Policy.password secret).authorises .readPassword
        (some ((some secret).getD "" ++ "\n")) = true := by simp [Policy.authorises]
    have first : line.runElevated perform false w = ⟨refusal line.head, [], w⟩ := by
      rw [elevated_program perform line w shell plain]
      exact tail_skipped perform .user line.tail _ skipped
    have second : line.runElevated perform true w = launch perform .root line.head w := by
      rw [elevated_program perform line w shell plain, sudoHead_authorised perform line w shell]
      exact tail_skipped perform .user line.tail _ last
    have whole := run_root perform line w plain last
    refine ⟨.of (Script.elevated .readPassword line).text
      (launch perform .root line.head w).output, ?_, ?_⟩
    · rw [execute_sudo, whole]
      simp only [denied, granted, first, second]
      exact if_neg some_secret
    · rw [whole]
      exact ⟨rfl, rfl, rfl⟩

/-- Exactly when an unchecked `sudo` is one run of the line by root. -/
theorem sudo_runs_once_as_root_iff (supplied : Supplied env policy) :
    RunsOnceAsRoot perform policy env host line timeout w ↔
      PrefixReaches perform policy line w :=
  ⟨prefixReaches_of_once supplied, once_of_prefixReaches supplied⟩

end Exactness

section Callers

def exampleHost : RemoteHost :=
  ⟨"192.168.1.20", "vmadmin", "~/.vmdeploy/keys/vm_key", 30, 300⟩

def exiting (status : Nat) : Perform Unit :=
  fun _ w => (⟨status, "", ""⟩, w)

/-- The read of `installed_source_hash`. -/
def catSourceHash (remoteDir : String) : Line :=
  ⟨⟨.program, ["cat", s!"{remoteDir}/.source-hash"], [.discardErrors]⟩, []⟩

/-- The check of `_verify_no_authorized_keys`. -/
def findAuthorizedKeys : Line :=
  tolerated .program ["find", "/root", "/home", "-name", "authorized_keys"]

theorem supplied_secret : Supplied (some "secret") (.password "secret") :=
  ⟨by decide, rfl⟩

/-- A test that succeeds under the password policy. -/
theorem sudo_runs_test_once :
    RunsOnceAsRoot (exiting 0) (.password "secret") (some "secret") exampleHost
      (program ["test", "-x", "/opt/inventory/inventory"]) none () :=
  (sudo_runs_once_as_root_iff supplied_secret).mpr ⟨rfl, rfl, rfl, rfl⟩

/-- A missing file on a guest that asks for no password, and a check that ends in
`|| true` on a guest that asks for one. -/
theorem sudo_misreports_reads_and_checks :
    ¬ RunsOnceAsRoot (exiting 1) .passwordless none exampleHost
        (catSourceHash "/opt/inventory") none () ∧
      ¬ RunsOnceAsRoot (exiting 0) (.password "secret") (some "secret") exampleHost
        findAuthorizedKeys none () := by
  refine ⟨fun once => ?_, fun once => ?_⟩
  · obtain ⟨_, _, status, _⟩ := prefixReaches_of_once (show Supplied none .passwordless from trivial) once
    exact nomatch status
  · obtain ⟨_, _, skipped, _⟩ := prefixReaches_of_once supplied_secret once
    exact nomatch skipped

end Callers

end VmDeploy.Remote
