import VmDeploy.VirtualBox.Manage

/-! What `power_off` has been told about a machine when it returns. -/

set_option autoImplicit false

open Effects Python

namespace VmDeploy.VirtualBox

/-- The end of one `showvminfo`, and whether the machine was registered then. -/
structure Report where
  result : ProcessResult
  registered : Bool

def Report.state (report : Report) : VMState :=
  if report.result.ok then stateOfInfo (splitLines report.result.stdout.toList) else .absent

/-- Nothing is executing: the hypervisor says so, or has no such machine. -/
def Report.Settled (report : Report) : Prop :=
  report.registered = false ∨ report.result.ok = true ∧
    (report.state = .poweredOff ∨ report.state = .saved ∨ report.state = .aborted)

/-- A registered machine in any other state than running, or whose query failed. -/
def Report.Unsettled (report : Report) : Prop :=
  report.state ≠ .running ∧ ¬ report.Settled

/-- The reports on a machine, and for each export and each restore the one before it. -/
structure Watch where
  reports : List Report
  worked : List (Option Report)

def Watch.last (watch : Watch) : Option Report :=
  watch.reports.getLast?

/-- Replies of the host, and whether the machine is registered. -/
structure Observed where
  reply : (op : HostOp) → op.Reply
  registered : Bool

def Watch.invoked (watch : Watch) (x : Observed) (vm : String) (timeout : Nat) : Command → Watch
  | .showvminfo name =>
      match x.reply (.invoke (.showvminfo name) timeout) with
      | .ok result =>
          if name = vm then { watch with reports := watch.reports ++ [⟨result, x.registered⟩] }
          else watch
      | .error _ => watch
  | .exportVm name _ | .snapshotRestore name _ =>
      if name = vm then { watch with worked := watch.worked ++ [watch.last] } else watch
  | _ => watch

def watchStep (vm : String) : Step hostSignature Watch Observed
  | x, .invoke command timeout, watch =>
      (x.reply (.invoke command timeout), watch.invoked x vm timeout command)
  | x, op, watch => (x.reply op, watch)

section Reports

variable {A : Type} {vm : String} {watch : Watch}

def Watch.Running (watch : Watch) : Prop :=
  ∀ report ∈ watch.reports, report.state = .running

def Watch.Stopped (watch : Watch) : Prop :=
  ∃ before last, watch.reports = before ++ [last] ∧
    (∀ report ∈ before, report.state = .running) ∧ last.state ≠ .running

/-- What a return says; nothing but a return follows a report of a machine that is not running. -/
abbrev Ending (post : A → Watch → Prop) : Outcome PyError A → Watch → Prop :=
  Ends Watch.Running post

def HostOp.Unreported : HostOp → Prop
  | .invoke (.showvminfo _) _ => False
  | _ => True

theorem ending_only {p : VBoxProg A} (only : p.Only HostOp.Unreported) (running : watch.Running) :
    Always (watchStep vm) p watch (Ending fun _ after => after.Running) := by
  have same : Always (watchStep vm) p watch (fun _ after => after.reports = watch.reports) := by
    refine always_only (fun w w' => w'.reports = w.reports) watch only (fun _ => rfl) ?_ ?_
    · exact fun _ _ _ first second => second.trans first
    · intro x op w unreported
      cases op with
      | invoke command timeout =>
        cases command with
        | showvminfo name => exact unreported.elim
        | exportVm | snapshotRestore =>
          simp only [watchStep, Watch.invoked]
          split <;> rfl
        | _ => rfl
      | _ => rfl
  refine Always.mono same ?_
  intro outcome after kept
  have still : after.Running := by
    unfold Watch.Running
    rw [kept]
    exact running
  cases outcome <;> exact still

theorem ending_run (command : Command) (unreported : HostOp.Unreported (.invoke command 120))
    (running : watch.Running) : Always (watchStep vm) (run command false 120) watch
      (Ending fun _ after => after.Running) :=
  ending_only (run_only HostOp.Unreported unreported _) running

theorem ending_state (running : watch.Running) :
    Always (watchStep vm) (state vm) watch (Ending fun seen after =>
      (seen = .running ∧ after.Running) ∨ (seen ≠ .running ∧ after.Stopped)) := by
  refine always_call running ?_
  intro x
  simp only [watchStep, Watch.invoked, if_true]
  cases x.reply (.invoke (.showvminfo vm) 120) with
  | error fault => cases fault <;> exact always_raise running
  | ok result =>
    refine always_done ?_
    change (Report.state ⟨result, x.registered⟩ = .running ∧ _) ∨
      (Report.state ⟨result, x.registered⟩ ≠ .running ∧ _)
    by_cases seen : Report.state ⟨result, x.registered⟩ = .running
    · refine .inl ⟨seen, ?_⟩
      intro report member
      rcases List.mem_append.mp member with old | new
      · exact running report old
      · rw [List.mem_singleton.mp new]
        exact seen
    · exact .inr ⟨seen, watch.reports, _, rfl, running, seen⟩

theorem ending_pollStopped (deadline polls : Nat) (running : watch.Running) :
    Always (watchStep vm) (pollStopped vm deadline polls) watch (Ending fun stopped after =>
      (stopped = false ∧ after.Running) ∨ (stopped = true ∧ after.Stopped)) := by
  induction polls generalizing watch with
  | zero => exact always_halt running
  | succ polls ih =>
    apply ends_bind (ending_only (p := ask .monotonic) ⟨trivial, fun _ => trivial⟩ running)
    intro now after running
    split
    · apply ends_bind (ending_state running)
      rintro seen after (⟨rfl, running⟩ | ⟨other, stopped⟩)
      · rw [if_neg (not_not.mpr rfl)]
        apply ends_bind (ending_only (p := ask (.sleep pollIntervalMs))
          ⟨trivial, fun _ => trivial⟩ running)
        exact fun _ _ running => ih running
      · rw [if_pos other]
        exact always_done (.inr ⟨rfl, stopped⟩)
    · exact always_done (.inl ⟨rfl, running⟩)

-- Whatever is reported, the first report of a machine that does not run is the last one.
theorem ending_powerOff (polls waitSeconds : Nat) (running : watch.Running) :
    Always (watchStep vm) (powerOff polls vm waitSeconds) watch
      (Ending fun _ after => after.Stopped) := by
  apply ends_bind (ending_state running)
  rintro seen after (⟨rfl, running⟩ | ⟨other, stopped⟩)
  · rw [if_neg (not_not.mpr rfl)]
    apply ends_bind (ending_run (.controlvm vm "acpipowerbutton") trivial running)
    intro _ after running
    apply ends_bind (ending_only (p := ask .monotonic) ⟨trivial, fun _ => trivial⟩ running)
    intro started after running
    apply ends_bind (ending_pollStopped _ polls running)
    rintro stopped after (⟨rfl, running⟩ | ⟨rfl, stopped⟩)
    · apply ends_bind (ending_run (.controlvm vm "poweroff") trivial running)
      intro _ after running
      apply ends_bind (ending_only (p := ask (.sleep pollIntervalMs))
        ⟨trivial, fun _ => trivial⟩ running)
      intro _ after running
      apply ends_bind (ending_state running)
      rintro seen after (⟨rfl, running⟩ | ⟨other, stopped⟩)
      · exact always_raise running
      · rw [if_neg other]
        exact always_done stopped
    · exact always_done stopped
  · rw [if_pos other]
    exact always_done stopped

/-- An export or a restore came after a report of a machine that did not run. -/
def Watch.Guarded (watch : Watch) : Prop :=
  ∀ entry ∈ watch.worked, ∃ report ∈ watch.reports, entry = some report ∧ report.state ≠ .running

def Watch.Cleared (watch : Watch) : Prop :=
  ∃ report, watch.last = some report ∧ report.state ≠ .running

theorem guarded_report {report : Report} (guarded : watch.Guarded) :
    Watch.Guarded { watch with reports := watch.reports ++ [report] } := by
  intro entry member
  obtain ⟨found, listed, same⟩ := guarded entry member
  exact ⟨found, List.mem_append_left _ listed, same⟩

theorem guarded_work (guarded : watch.Guarded) (cleared : watch.Cleared) :
    Watch.Guarded { watch with worked := watch.worked ++ [watch.last] } := by
  intro entry member
  rcases List.mem_append.mp member with old | new
  · exact guarded entry old
  · obtain ⟨report, last, stopped⟩ := cleared
    rw [List.mem_singleton.mp new]
    exact ⟨report, List.mem_of_getLast? last, last, stopped⟩

theorem guarded_invoked (x : Observed) {command : Command} {timeout : Nat}
    (other : command.touchesSnapshots = false ∧ ∀ name destination, command ≠ .exportVm name destination)
    (guarded : watch.Guarded) : (watch.invoked x vm timeout command).Guarded := by
  cases command with
  | showvminfo name =>
    simp only [Watch.invoked]
    split
    · split
      · exact guarded_report guarded
      · exact guarded
    · exact guarded
  | exportVm name destination => exact absurd rfl (other.2 name destination)
  | snapshotRestore name snapshot => cases other.1
  | _ => exact guarded

theorem guarded_powerOff (polls waitSeconds : Nat) (guarded : watch.Guarded) :
    Upholds (watchStep vm) (powerOff polls vm waitSeconds) watch Watch.Guarded
      (fun _ _ => True) := by
  refine upholds_only (powerOff_only polls vm waitSeconds) guarded ?_
  intro x op w stops held
  cases op with
  | invoke command timeout =>
    cases command with
    | showvminfo | controlvm => exact guarded_invoked x ⟨rfl, nofun⟩ held
    | _ => exact stops.elim
  | _ => exact held

theorem guarded_unreported {p : VBoxProg A} (only : p.Only HostOp.Unreported)
    (guarded : watch.Guarded) (cleared : watch.Cleared) :
    Upholds (watchStep vm) p watch (fun after => after.Guarded ∧ after.Cleared)
      (fun _ _ => True) := by
  refine upholds_only only ⟨guarded, cleared⟩ ?_
  rintro x op w unreported ⟨held, clear⟩
  cases op with
  | invoke command timeout =>
    cases command with
    | showvminfo name => exact unreported.elim
    | exportVm | snapshotRestore =>
      simp only [watchStep, Watch.invoked]
      split
      · exact ⟨guarded_work held clear, clear⟩
      · exact ⟨held, clear⟩
    | _ => exact ⟨held, clear⟩
  | _ => exact ⟨held, clear⟩

-- A method that goes on only if the machine does not run.
theorem guarded_method {body : VBoxProg Unit} (only : body.Only HostOp.Unreported) (error : PyError)
    (guarded : watch.Guarded) :
    Upholds (watchStep vm)
      ((state vm).bind fun seen => if seen = .running then .raise error else body) watch
      Watch.Guarded (fun _ _ => True) := by
  have asks : Upholds (watchStep vm) (state vm) watch Watch.Guarded
      (fun seen after => seen ≠ .running → after.Cleared) := by
    refine upholds_call guarded ?_
    intro x
    simp only [watchStep, Watch.invoked, if_true]
    cases x.reply (.invoke (.showvminfo vm) 120) with
    | error fault => cases fault <;> exact upholds_raise guarded
    | ok result =>
      refine upholds_done (guarded_report guarded) ?_
      intro stopped
      exact ⟨_, List.getLast?_concat, stopped⟩
  apply upholds_bind asks
  intro seen after held clear
  split
  · exact upholds_raise held
  · next stopped =>
    exact (guarded_unreported only held (clear stopped)).mono (fun _ both => both.1)
      (fun _ _ _ _ => trivial)

theorem guarded_exportAppliance (destination : String) (guarded : watch.Guarded) :
    Upholds (watchStep vm) (exportAppliance vm destination) watch Watch.Guarded
      (fun _ _ => True) := by
  refine guarded_method ?_ _ guarded
  refine Prog.Only.bind ⟨trivial, fun _ => trivial⟩ (fun _ => ?_)
  refine Prog.Only.bind (orOsError_only _ _) (fun _ => ?_)
  refine Prog.Only.bind ?_ (fun _ => ?_)
  · refine Prog.Only.bind ⟨trivial, fun _ => trivial⟩ (fun _ => ?_)
    refine Prog.Only.bind (orOsError_only _ _) ?_
    intro present
    split
    · exact Prog.Only.bind ⟨trivial, fun _ => trivial⟩ (fun _ => orOsError_only _ _)
    · trivial
  · refine Prog.Only.bind (run_only HostOp.Unreported (by exact trivial) _) (fun _ => ?_)
    refine Prog.Only.bind ⟨trivial, fun _ => trivial⟩ (fun _ => ?_)
    exact Prog.Only.bind (orOsError_only _ _) (fun _ => trivial)

theorem guarded_restoreSnapshot (snapshot : String) (guarded : watch.Guarded) :
    Upholds (watchStep vm) (restoreSnapshot vm snapshot) watch Watch.Guarded
      (fun _ _ => True) := by
  refine guarded_method ?_ _ guarded
  exact Prog.Only.bind (run_only HostOp.Unreported (by exact trivial) _) (fun _ => trivial)

end Reports

def unwatched : Watch :=
  ⟨[], []⟩

def SettledReturn (outcome : Outcome PyError Unit) (after : Watch) : Prop :=
  outcome = .returned () → ∃ last, after.last = some last ∧ last.Settled

def SettledWork (after : Watch) : Prop :=
  ∀ entry ∈ after.worked, ∃ report, entry = some report ∧ report.Settled

def AllSettling (after : Watch) : Prop :=
  ∀ report ∈ after.reports, ¬ report.Unsettled

theorem settledWork_of {after : Watch} (guarded : after.Guarded) (settling : AllSettling after) :
    SettledWork after := by
  intro entry member
  obtain ⟨report, listed, same, stopped⟩ := guarded entry member
  refine ⟨report, same, ?_⟩
  by_contra unsettled
  exact settling report listed ⟨stopped, unsettled⟩

theorem settledReturn_iff {outcome : Outcome PyError Unit} {after : Watch}
    (ended : Ending (fun _ after => after.Stopped) outcome after) :
    SettledReturn outcome after ↔ AllSettling after := by
  have running : after.Running → AllSettling after :=
    fun all report member unsettled => unsettled.1 (all report member)
  cases outcome with
  | returned value =>
    obtain ⟨before, last, reports, all, stopped⟩ := ended
    have shown : after.last = some last := by
      rw [Watch.last, reports, List.getLast?_concat]
    constructor
    · intro settles report member unsettled
      obtain ⟨found, same, settled⟩ := settles rfl
      rw [shown, Option.some.injEq] at same
      rw [reports] at member
      rcases List.mem_append.mp member with old | new
      · exact unsettled.1 (all report old)
      · rw [List.mem_singleton.mp new, same] at unsettled
        exact unsettled.2 settled
    · intro settling _
      refine ⟨last, shown, ?_⟩
      by_contra unsettled
      exact settling last (by simp [reports]) ⟨stopped, unsettled⟩
  | raised error =>
    exact ⟨fun _ => running ended, fun _ same => by cases same⟩
  | stopped =>
    exact ⟨fun _ => running ended, fun _ same => by cases same⟩

/-- `power_off` returns on a settled machine just where no report was of another state, and
then neither an export nor a restore meets one that is executing. -/
theorem power_off_settles_iff (vm : String) (polls waitSeconds : Nat) :
    Always (watchStep vm) (powerOff polls vm waitSeconds) unwatched
      (fun outcome after => SettledReturn outcome after ↔ AllSettling after) ∧
    (∀ destination, Always (watchStep vm)
      ((powerOff polls vm waitSeconds).bind fun _ => exportAppliance vm destination) unwatched
      (fun _ after => AllSettling after → SettledWork after)) ∧
    ∀ snapshot, Always (watchStep vm)
      ((powerOff polls vm waitSeconds).bind fun _ => restoreSnapshot vm snapshot) unwatched
      (fun _ after => AllSettling after → SettledWork after) := by
  have none : ∀ {P : Report → Prop}, ∀ report ∈ unwatched.reports, P report :=
    fun report member => absurd member List.not_mem_nil
  have unguarded : unwatched.Guarded := fun entry member => absurd member List.not_mem_nil
  have follows : ∀ next : VBoxProg Unit,
      (∀ {watch : Watch}, watch.Guarded →
        Upholds (watchStep vm) next watch Watch.Guarded (fun _ _ => True)) →
      Always (watchStep vm) ((powerOff polls vm waitSeconds).bind fun _ => next) unwatched
        (fun _ after => AllSettling after → SettledWork after) := by
    intro next keeps
    have first : Upholds (watchStep vm) (powerOff polls vm waitSeconds) unwatched Watch.Guarded
        (fun _ _ => True) :=
      guarded_powerOff polls waitSeconds unguarded
    have both := upholds_bind first (fun _ _ held _ => keeps held)
    exact Always.mono both fun _ _ ended => settledWork_of ended.1
  refine ⟨?_, fun destination => follows _ (guarded_exportAppliance destination),
    fun snapshot => follows _ (guarded_restoreSnapshot snapshot)⟩
  exact Always.mono (ending_powerOff polls waitSeconds none) fun _ _ => settledReturn_iff

def pausedHost : Observed :=
  ⟨HostOp.idle (.ok ⟨0, "name=\"apubuntuD\"\nVMState=\"paused\"\n", ""⟩), true⟩

theorem paused_machine_passes : ∃ after,
    (powerOff 24 "apubuntuD" 120).eval (watchStep "apubuntuD") unwatched [pausedHost] =
        (.returned (), after) ∧
      ¬ SettledReturn (.returned ()) after := by
  refine ⟨⟨[⟨⟨0, "name=\"apubuntuD\"\nVMState=\"paused\"\n", ""⟩, true⟩], []⟩, rfl, ?_⟩
  intro settles
  obtain ⟨last, same, settled⟩ := settles rfl
  cases same
  rcases settled with absent | ⟨-, poweredOff | saved | aborted⟩
  · cases absent
  · exact absurd poweredOff (by decide)
  · exact absurd saved (by decide)
  · exact absurd aborted (by decide)

end VmDeploy.VirtualBox
