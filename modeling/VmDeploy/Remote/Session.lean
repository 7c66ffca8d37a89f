import VmDeploy.Remote.Host

/-! Sessions on a guest: every command may end in any way its guest allows, and the
transport may fail at any request, after its effect or in place of it. -/

set_option autoImplicit false

open Effects Shell

namespace VmDeploy.Remote

/-- The variable holds what the policy asks for. -/
def Supplied (env : Option String) : Policy → Prop
  | .passwordless => True
  | .password secret => secret ≠ "" ∧ env = some secret

/-- A guest of states `W`, with what one choice `X` decides about a request. -/
structure Environment (W X : Type) where
  perform : X → Perform W
  lost : X → Option String
  transfer : X → (op : RemoteOp) → W → op.Reply × W

variable {W X : Type}

def Environment.ran (guest : Environment W X) (x : X) (policy : Policy) (stdin : Option String)
    (script : Script) (w : W) : Ran W :=
  script.run (guest.perform x) policy stdin w

def Environment.step (guest : Environment W X) (policy : Policy) (env : Option String) :
    Step remoteSignature W X
  | x, .exec script stdin _, w =>
      let ran := guest.ran x policy stdin script w
      (match guest.lost x with
        | some exc => .error exc
        | none => .ok ran.output, ran.world)
  | _, .getenv name, w => (if name = sudoPasswordEnv then env else none, w)
  | x, op, w => guest.transfer x op w

section Commands

variable {guest : Environment W X} {policy : Policy} {env : Option String} {host : RemoteHost}
  {inv : W → Prop} {post : CommandResult → W → Prop}

theorem upholds_captured {command : String} {output : Output} {check : Bool} {w : W}
    {step : Step remoteSignature W X} (held : inv w)
    (returns : (check = true → output.exitStatus = 0) → post (.of command output) w) :
    Upholds step (captured command output check) w inv post := by
  unfold captured
  split
  · exact upholds_raise held
  · next passed =>
    refine upholds_done held (returns fun checked => ?_)
    simpa [checked] using passed

theorem upholds_run {script : Script} {check : Bool} {timeout : Option Nat} {w : W} (held : inv w)
    (ends : ∀ x, inv (guest.ran x policy none script w).world)
    (returns : ∀ x, let ran := guest.ran x policy none script w
      (check = true → ran.output.exitStatus = 0) → post (.of script.text ran.output) ran.world) :
    Upholds (guest.step policy env) (host.run script check timeout) w inv post := by
  refine upholds_call held ?_
  intro x
  cases lost : guest.lost x with
  | some exc =>
    simp only [Environment.step, lost]
    exact upholds_raise (ends x)
  | none =>
    simp only [Environment.step, lost]
    exact upholds_captured (ends x) (returns x)

theorem upholds_sudoPassword {w : W} {post : String → W → Prop} (held : inv w)
    (returns : ∀ password, env = some password → password ≠ "" → post password w) :
    Upholds (guest.step policy env) sudoPassword w inv post := by
  refine upholds_call held ?_
  intro x
  simp only [Environment.step, if_true]
  cases env with
  | none => exact upholds_raise held
  | some password =>
    by_cases empty : password = ""
    · simp only [empty]
      exact upholds_raise held
    · simp only [Prog.bind, if_pos empty]
      exact upholds_done held (returns password rfl empty)

-- The attempts of `sudo`: the first one exits with zero, or a second one follows
-- with the password of the environment.
theorem upholds_sudo {line : Line} {check : Bool} {timeout : Option Nat} {w : W} (held : inv w)
    (ends : ∀ x, inv (guest.ran x policy none (.elevated .nonInteractive line) w).world)
    (returns : ∀ x, let ran := guest.ran x policy none (.elevated .nonInteractive line) w
      ran.output.exitStatus = 0 →
        post (.of (Script.elevated .nonInteractive line).text ran.output) ran.world)
    (again : ∀ x y password,
      (guest.ran x policy none (.elevated .nonInteractive line) w).output.exitStatus ≠ 0 →
      env = some password → password ≠ "" →
      let ran := guest.ran y policy (some (password ++ "\n")) (.elevated .readPassword line)
        (guest.ran x policy none (.elevated .nonInteractive line) w).world
      inv ran.world ∧ ((check = true → ran.output.exitStatus = 0) →
        post (.of (Script.elevated .readPassword line).text ran.output) ran.world)) :
    Upholds (guest.step policy env) (host.sudo line check timeout) w inv post := by
  have first : Upholds (guest.step policy env)
      (host.run (.elevated .nonInteractive line) false timeout) w inv
      (fun result after => ∃ x,
        result = .of (Script.elevated .nonInteractive line).text
          (guest.ran x policy none (.elevated .nonInteractive line) w).output ∧
        after = (guest.ran x policy none (.elevated .nonInteractive line) w).world) :=
    upholds_run held ends (fun x _ => ⟨x, rfl, rfl⟩)
  refine upholds_bind first ?_
  rintro _ after kept ⟨x, rfl, rfl⟩
  by_cases good : (guest.ran x policy none (.elevated .nonInteractive line) w).output.exitStatus = 0
  · rw [if_pos ((ok_of_iff _ _).mpr good)]
    exact upholds_done kept (returns x good)
  · rw [if_neg (fun ok => good ((ok_of_iff _ _).mp ok))]
    have password : Upholds (guest.step policy env) sudoPassword
        (guest.ran x policy none (.elevated .nonInteractive line) w).world inv
        (fun password after => (env = some password ∧ password ≠ "") ∧
          after = (guest.ran x policy none (.elevated .nonInteractive line) w).world) :=
      upholds_sudoPassword kept (fun password set nonempty => ⟨⟨set, nonempty⟩, rfl⟩)
    refine upholds_bind password ?_
    rintro password _ _ ⟨⟨set, nonempty⟩, rfl⟩
    refine upholds_call kept ?_
    intro y
    obtain ⟨ends, returned⟩ := again x y password good set nonempty
    cases lost : guest.lost y with
    | some exc =>
      simp only [Environment.step, lost]
      exact upholds_raise ends
    | none =>
      simp only [Environment.step, lost]
      exact upholds_captured ends returned

/-- A line that is one program, for which the shell opens no file. -/
def Single (line : Line) : Prop :=
  line.head.kind = .program ∧ line.head.touchesFiles = false ∧ line.tail = []

theorem single_program (words : List String) : Single (program words) :=
  ⟨rfl, rfl, rfl⟩

theorem runElevated_single (perform : Perform W) {line : Line} (single : Single line)
    (authorised : Bool) (w : W) :
    line.runElevated perform authorised w =
      if authorised then launch perform .root line.head w else ⟨refusal line.head, [], w⟩ := by
  obtain ⟨shell, plain, alone⟩ := single
  have head : line.runElevated perform authorised w =
      Tail.run perform .user [] (sudoHead perform authorised line.head w) := by
    rw [Line.runElevated, if_neg (by rw [shell]; decide), opening, if_neg (by simp [plain]), alone]
  rw [head, tail_skipped _ _ _ _ rfl]
  cases authorised with
  | true => simp [sudoHead, shell]
  | false => rfl

-- What an attempt makes of one program: `sudo` refuses and nothing happens, or root
-- runs the program.
theorem ran_single (guest : Environment W X) (policy : Policy) {line : Line} (single : Single line)
    (x : X) (stdin : Option String) (mode : SudoMode) (w : W) :
    guest.ran x policy stdin (.elevated mode line) w =
      if policy.authorises mode stdin then launch (guest.perform x) .root line.head w
      else ⟨refusal line.head, [], w⟩ :=
  runElevated_single (guest.perform x) single _ w

theorem ran_plain (guest : Environment W X) (policy : Policy) {line : Line} (single : Single line)
    (x : X) (stdin : Option String) (w : W) :
    guest.ran x policy stdin (.plain line) w = launch (guest.perform x) .user line.head w := by
  obtain ⟨_, plain, alone⟩ := single
  have head : line.run (guest.perform x) .user w =
      Tail.run (guest.perform x) .user [] (launch (guest.perform x) .user line.head w) := by
    rw [Line.run, Simple.run, opening, if_neg (by simp [plain]), alone]
  rw [Environment.ran, Script.run, head, tail_skipped _ _ _ _ rfl]

-- `sudo` of one program, for an invariant that root running it keeps.
theorem upholds_sudo_single {line : Line} (single : Single line) {check : Bool}
    {timeout : Option Nat} {w : W} (held : inv w)
    (keeps : ∀ x w, inv w → inv (guest.perform x (.runs .root line.head) w).2)
    (refused : check = false → ∀ command w, inv w → post (.of command (refusal line.head)) w)
    (ran : ∀ command x w, inv w →
      let result := guest.perform x (.runs .root line.head) w
      (check = true → result.1.exitStatus = 0) → post (.of command result.1) result.2) :
    Upholds (guest.step policy env) (host.sudo line check timeout) w inv post := by
  have attempt : ∀ x mode stdin w, inv w →
      inv (guest.ran x policy stdin (.elevated mode line) w).world := by
    intro x mode stdin w here
    rw [ran_single guest policy single]
    split
    · exact keeps x w here
    · exact here
  have ended : ∀ x mode stdin w, inv w →
      let result := guest.ran x policy stdin (.elevated mode line) w
      ∀ command, (check = true → result.output.exitStatus = 0) →
        post (.of command result.output) result.world := by
    intro x mode stdin w here
    rw [ran_single guest policy single]
    dsimp only
    split
    · exact fun command passed => ran command x w here passed
    · intro command passed
      cases check with
      | true => exact absurd (passed rfl) Nat.one_ne_zero
      | false => exact refused rfl command w here
  refine upholds_sudo held (fun x => attempt x _ _ w held) ?_ ?_
  · exact fun x good => ended x _ _ w held _ (fun _ => good)
  · intro x y password _ _ _
    have middle := attempt x .nonInteractive none w held
    exact ⟨attempt y _ _ _ middle, fun passed => ended y _ _ _ middle _ passed⟩

end Commands

section Fixed

variable {answer : (op : RemoteOp) → W → op.Reply × W} {env : Option String} {line : Line}
  {run : SudoMode → Option String → W → Output × W}

theorem execute_sudoPassword (reads : ∀ w, answer (.getenv sudoPasswordEnv) w = (env, w)) (w : W) :
    sudoPassword.execute answer w =
      if env.getD "" = "" then (.raised sudoPassword.missingPassword, w)
      else (.returned (env.getD ""), w) := by
  cases env with
  | none => simp [sudoPassword, ask, Prog.perform, Prog.bind, Prog.execute, reads]
  | some password =>
    by_cases empty : password = ""
    · simp [sudoPassword, ask, Prog.perform, Prog.bind, Prog.execute, reads, empty]
    · simp [sudoPassword, ask, Prog.perform, Prog.bind, Prog.execute, reads, empty]

-- The four endings of a checked `sudo` on a connection that answers every script.
theorem execute_sudo_ends (answer : (op : RemoteOp) → W → op.Reply × W) (env : Option String)
    (line : Line) (run : SudoMode → Option String → W → Output × W) (host : RemoteHost)
    (timeout : Option Nat)
    (execs : ∀ mode stdin seconds w, answer (.exec (.elevated mode line) stdin seconds) w =
      (.ok (run mode stdin w).1, (run mode stdin w).2))
    (reads : ∀ w, answer (.getenv sudoPasswordEnv) w = (env, w)) (w : W) :
    let first := run .nonInteractive none w
    let second := run .readPassword (some (env.getD "" ++ "\n")) first.2
    let ended := (host.sudo line true timeout).execute answer w
    (first.1.exitStatus = 0 ∧ ∃ result, ended = (.returned result, first.2)) ∨
      (first.1.exitStatus ≠ 0 ∧ env.getD "" = "" ∧ ∃ error, ended = (.raised error, first.2)) ∨
      (first.1.exitStatus ≠ 0 ∧ env.getD "" ≠ "" ∧ second.1.exitStatus = 0 ∧
        ∃ result, ended = (.returned result, second.2)) ∨
      (first.1.exitStatus ≠ 0 ∧ env.getD "" ≠ "" ∧ second.1.exitStatus ≠ 0 ∧
        ∃ error, ended = (.raised error, second.2)) := by
  intro first second ended
  have attempted : (host.run (.elevated .nonInteractive line) false timeout).execute answer w =
      (.returned (.of (Script.elevated .nonInteractive line).text first.1), first.2) := by
    simp [RemoteHost.run, captured, ask, Prog.perform, Prog.bind, Prog.execute, execs, first]
  have unfolded : ended = _ := execute_bind attempted
  rw [unfolded]
  by_cases good : first.1.exitStatus = 0
  · rw [if_pos ((ok_of_iff _ _).mpr good)]
    exact .inl ⟨good, _, rfl⟩
  · rw [if_neg (fun ok => good ((ok_of_iff _ _).mp ok)), Prog.bind_eq]
    by_cases empty : env.getD "" = ""
    · have missing := (execute_sudoPassword reads first.2).trans (if_pos empty)
      rw [execute_bind_raised missing]
      exact .inr (.inl ⟨good, empty, _, rfl⟩)
    · have supplied := (execute_sudoPassword reads first.2).trans (if_neg empty)
      have last : (host.sudoWithPassword line true timeout (env.getD "")).execute answer first.2 =
          (captured (Script.elevated .readPassword line).text second.1 true).execute answer second.2 := by
        simp [RemoteHost.sudoWithPassword, ask, Prog.perform, Prog.bind, Prog.execute, execs, second]
      rw [execute_bind supplied, last, captured]
      by_cases status : second.1.exitStatus = 0
      · rw [if_neg (by simp [status])]
        exact .inr (.inr (.inl ⟨good, empty, status, _, rfl⟩))
      · rw [if_pos (by simp [status])]
        exact .inr (.inr (.inr ⟨good, empty, status, _, rfl⟩))

end Fixed

end VmDeploy.Remote
