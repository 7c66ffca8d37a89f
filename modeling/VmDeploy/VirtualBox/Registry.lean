import VmDeploy.VirtualBox.Address

/-! The registered machines, the commands issued to them, and what `destroy` does to them.

A command may or may not have its effect, whatever its exit status is. Only a successful
listing is believed: it prints each machine on a line of its own. -/

set_option autoImplicit false

open Effects Python

namespace VmDeploy.VirtualBox

structure Listed where
  name : Text
  uuid : Text
  deriving DecidableEq, Repr

/-- A command with whether it had its effect. -/
structure Issued where
  command : Command
  took : Bool
  deriving DecidableEq, Repr

structure Hypervisor where
  machines : List Listed
  issued : List Issued
  deriving DecidableEq, Repr

structure HypervisorChoice where
  reply : (op : HostOp) → op.Reply
  took : Bool
  uuid : Text

def Hypervisor.names (world : Hypervisor) : List Text :=
  world.machines.map Listed.name

def Hypervisor.Registered (world : Hypervisor) (vm : String) : Prop :=
  vm.toList ∈ world.names

instance (world : Hypervisor) (vm : String) : Decidable (world.Registered vm) :=
  inferInstanceAs (Decidable (_ ∈ _))

def listingLine (machine : Listed) : Text :=
  '"' :: machine.name ++ "\" \x7b".toList ++ machine.uuid ++ ['}']

def listing (machines : List Listed) : Text :=
  machines.flatMap fun machine => listingLine machine ++ ['\n']

def Command.registers (uuid : Text) (machines : List Listed) : Command → List Listed
  | .unregistervm vm => machines.filter fun machine => machine.name ≠ vm.toList
  | .importVm _ vm => machines ++ [⟨vm.toList, uuid⟩]
  | _ => machines

def Hypervisor.perform (x : HypervisorChoice) (command : Command) (world : Hypervisor) :
    Hypervisor where
  machines := if x.took then command.registers x.uuid world.machines else world.machines
  issued := world.issued ++ [⟨command, x.took⟩]

/-- A listing that succeeds prints the registered machines. -/
def Hypervisor.answer (x : HypervisorChoice) (command : Command) (timeout : Nat)
    (world : Hypervisor) : Except RunFault ProcessResult :=
  match command, x.reply (.invoke command timeout) with
  | .listVms, .ok result =>
      .ok (if result.ok then { result with stdout := String.ofList (listing world.machines) }
        else result)
  | _, reply => reply

def hypervisorStep : Step hostSignature Hypervisor HypervisorChoice
  | x, .invoke command timeout, world =>
      (world.answer x command timeout, world.perform x command)
  | x, op, world => (x.reply op, world)

/-- Names without line breaks, and identifiers without line breaks and quotation marks. -/
def Listed.Plain (machine : Listed) : Prop :=
  (∀ c ∈ machine.name, isLineBreak c = false) ∧
    ∀ c ∈ machine.uuid, isLineBreak c = false ∧ c ≠ '"'

def Hypervisor.Plain (world : Hypervisor) : Prop :=
  ∀ machine ∈ world.machines, machine.Plain

theorem splitLinesFrom_line {line : Text} (plain : ∀ c ∈ line, isLineBreak c = false)
    (before rest : Text) :
    splitLinesFrom before (line ++ '\n' :: rest) = (before ++ line) :: splitLinesFrom [] rest := by
  induction line generalizing before with
  | nil =>
    rw [List.nil_append, List.append_nil, splitLinesFrom]
    · rfl
    · intro _ impossible
      cases impossible
  | cons c line ih =>
    obtain ⟨here, later⟩ := List.forall_mem_cons.mp plain
    rw [List.cons_append, splitLinesFrom]
    · rw [here, if_neg (by decide), ih later, List.append_assoc]
      rfl
    · rintro rest rfl
      exact absurd here (by decide)

-- No name ends before the only quotation mark of a line, which stands at its beginning.
theorem greedyName_none {text : Text} (unquoted : '"' ∉ text.tail) : greedyName text = none := by
  induction text with
  | nil => rfl
  | cons c rest ih =>
    have later : '"' ∉ rest.tail := fun member => unquoted (List.mem_of_mem_tail member)
    have open' : closesName rest = false := by
      unfold closesName
      split
      · next rest' => exact absurd List.mem_cons_self unquoted
      · rfl
    rw [greedyName, ih later, open']
    rfl

theorem greedyName_line {name tail : Text} (named : name ≠ []) (unquoted : '"' ∉ tail.tail)
    (closes : closesName tail = true) : greedyName (name ++ tail) = some name := by
  induction name with
  | nil => exact absurd rfl named
  | cons c rest ih =>
    rw [List.cons_append, greedyName]
    cases rest with
    | nil => rw [List.nil_append, greedyName_none unquoted, closes]; rfl
    | cons d rest => rw [ih (List.cons_ne_nil d rest)]

theorem vmNameOfLine_line {machine : Listed} (plain : machine.Plain) :
    vmNameOfLine (listingLine machine) =
      if machine.name = [] then none else some machine.name := by
  have unquoted : '"' ∉ ("\" \x7b".toList ++ machine.uuid ++ ['}']).tail := by
    intro member
    have inside : '"' ∈ machine.uuid := by simpa using member
    exact (plain.2 _ inside).2 rfl
  have line : listingLine machine =
      '"' :: (machine.name ++ ("\" \x7b".toList ++ machine.uuid ++ ['}'])) := by
    simp [listingLine]
  rw [line, vmNameOfLine]
  split
  · next empty => rw [empty, List.nil_append, greedyName_none unquoted]
  · next named => exact greedyName_line named unquoted (by rfl)

theorem listingLine_plain {machine : Listed} (plain : machine.Plain) :
    ∀ c ∈ listingLine machine, isLineBreak c = false := by
  intro c member
  simp only [listingLine, List.cons_append, List.mem_cons, List.mem_append] at member
  rcases member with rfl | ((named | marks) | within) | closes
  · decide
  · exact plain.1 c named
  · have each : "\" \x7b".toList.all (fun c => isLineBreak c = false) = true := by decide
    exact of_decide_eq_true (List.all_eq_true.mp each c marks)
  · exact (plain.2 c within).1
  · obtain rfl : c = '}' := by simpa using closes
    decide

-- The names that a listing shows are those of the registered machines.
theorem names_of_listing {machines : List Listed} (plain : ∀ machine ∈ machines, machine.Plain) :
    (splitLines (listing machines)).filterMap vmNameOfLine =
      (machines.map Listed.name).filter (· ≠ []) := by
  induction machines with
  | nil => rfl
  | cons machine rest ih =>
    obtain ⟨here, later⟩ := List.forall_mem_cons.mp plain
    have first : splitLines (listing (machine :: rest)) =
        listingLine machine :: splitLines (listing rest) := by
      rw [splitLines, listing, List.flatMap_cons, List.append_assoc, List.singleton_append,
        splitLinesFrom_line (listingLine_plain here)]
      rfl
    rw [first, List.filterMap_cons, vmNameOfLine_line here, ih later]
    by_cases empty : machine.name = [] <;> simp [empty]

def Hypervisor.Shows (world : Hypervisor) (vm : String) : Prop :=
  vm.toList ∈ (splitLines (listing world.machines)).filterMap vmNameOfLine

instance (world : Hypervisor) (vm : String) : Decidable (world.Shows vm) :=
  inferInstanceAs (Decidable (_ ∈ _))

theorem shows_iff {world : Hypervisor} (plain : world.Plain) {vm : String} (named : vm ≠ "") :
    world.Shows vm ↔ world.Registered vm := by
  have visible : vm.toList ≠ [] := by simpa using named
  rw [Hypervisor.Shows, names_of_listing plain]
  simp [Hypervisor.Registered, Hypervisor.names, visible]

section Commands

variable {world : Hypervisor} {inv : Hypervisor → Prop}

theorem upholds_run {command : Command} {check : Bool} {timeout : Nat}
    {post : ProcessResult → Hypervisor → Prop} (held : inv world)
    (after : ∀ x, inv (world.perform x command))
    (ends : ∀ x result, world.answer x command timeout = .ok result →
      (check = true → result.ok = true) → post result (world.perform x command)) :
    Upholds hypervisorStep (run command check timeout) world inv post := by
  apply upholds_call held
  intro x
  cases answer : world.answer x command timeout with
  | error fault =>
    simp only [hypervisorStep, answer]
    cases fault with
    | timeoutExpired => exact upholds_raise (after x)
    | osError text => exact upholds_raise (after x)
  | ok result =>
    simp only [hypervisorStep, answer, Prog.bind, completed]
    split
    · exact upholds_raise (after x)
    · next accepted =>
      apply upholds_done (after x)
      apply ends x result answer
      intro checked
      simpa [checked] using accepted

end Commands

def Hypervisor.deletes (world : Hypervisor) (vm : String) : Nat :=
  world.issued.countP fun entry => entry.command = .unregistervm vm

/-- No machine came or went, and no deletion was asked for. -/
def Settled (vm : String) (world after : Hypervisor) : Prop :=
  after.machines = world.machines ∧ after.deletes vm = world.deletes vm

theorem upholds_isRegistered (vm : String) (world : Hypervisor) :
    Upholds hypervisorStep (isRegistered vm) world (Settled vm world)
      (fun found after => found = true ↔ after.Shows vm) := by
  have settled : ∀ x, Settled vm world (world.perform x .listVms) := by
    intro x
    constructor
    · simp [Hypervisor.perform, Command.registers]
    · simp [Hypervisor.deletes, Hypervisor.perform]
  have lists : Upholds hypervisorStep listVms world (Settled vm world)
      (fun names after => names =
        (splitLines (listing after.machines)).filterMap vmNameOfLine) := by
    apply upholds_bind (m := fun result after =>
      result.stdout = String.ofList (listing after.machines))
    · apply upholds_run ⟨rfl, rfl⟩ settled
      intro x result answer success
      unfold Hypervisor.answer at answer
      cases reply : x.reply (.invoke .listVms 120) with
      | error fault =>
        simp only [reply] at answer
        cases answer
      | ok found =>
        simp only [reply, Except.ok.injEq] at answer
        subst answer
        have good := success rfl
        rw [(settled x).1]
        split at good
        · next ok => rw [if_pos ok]
        · next bad => exact absurd good bad
    · intro result after held printed
      apply upholds_done held
      rw [printed, String.toList_ofList]
  apply upholds_bind lists
  intro names after held same
  apply upholds_done held
  simp [same, Hypervisor.Shows]

/-- No machine came, and the deletion of one was asked for at most so many times. -/
def Reduced (vm : String) (deletes : Nat) (world after : Hypervisor) : Prop :=
  (∀ machine ∈ after.machines, machine ∈ world.machines) ∧
    after.deletes vm ≤ world.deletes vm + deletes

theorem Settled.reduced {vm : String} {world after : Hypervisor}
    (settled : Settled vm world after) : Reduced vm 0 world after := by
  constructor
  · intro machine member
    rw [← settled.1]
    exact member
  · exact Nat.le_of_eq settled.2

theorem Reduced.trans {vm : String} {first second : Nat} {world middle after : Hypervisor}
    (early : Reduced vm first world middle) (late : Reduced vm second middle after) :
    Reduced vm (first + second) world after := by
  constructor
  · exact fun machine member => early.1 machine (late.1 machine member)
  · have one := early.2
    have two := late.2
    omega

theorem Reduced.more {vm : String} {deletes more : Nat} {world after : Hypervisor}
    (reduced : Reduced vm deletes world after) (enough : deletes ≤ more) :
    Reduced vm more world after :=
  ⟨reduced.1, Nat.le_trans reduced.2 (Nat.add_le_add_left enough _)⟩

theorem Reduced.refl (vm : String) (world : Hypervisor) : Reduced vm 0 world world :=
  ⟨fun _ member => member, Nat.le_refl _⟩

theorem Reduced.plain {vm : String} {deletes : Nat} {world after : Hypervisor}
    (reduced : Reduced vm deletes world after) (plain : world.Plain) : after.Plain :=
  fun machine member => plain machine (reduced.1 machine member)

def HostOp.Keeps : HostOp → Prop
  | .invoke (.unregistervm _) _ | .invoke (.importVm _ _) _ => False
  | _ => True

theorem HostOp.Stops.keeps {vm : String} {op : HostOp} (stops : op.Stops vm) : op.Keeps := by
  cases op with
  | invoke command timeout =>
    cases command with
    | unregistervm name => exact stops
    | importVm source name => exact stops
    | _ => trivial
  | _ => trivial

theorem keeps_settled {op : HostOp} (keeps : op.Keeps) (vm : String) (x : HypervisorChoice)
    (world : Hypervisor) : Settled vm world (hypervisorStep x op world).2 := by
  cases op with
  | invoke command timeout =>
    have machines : command.registers x.uuid world.machines = world.machines := by
      cases command with
      | unregistervm name => exact keeps.elim
      | importVm source name => exact keeps.elim
      | _ => rfl
    have other : command ≠ .unregistervm vm := by
      rintro rfl
      exact keeps.elim
    constructor
    · simp [hypervisorStep, Hypervisor.perform, machines]
    · simp [hypervisorStep, Hypervisor.perform, Hypervisor.deletes, other]
  | _ => exact ⟨rfl, rfl⟩

theorem upholds_powerOff (polls : Nat) (vm : String) (waitSeconds : Nat) (world : Hypervisor) :
    Upholds hypervisorStep (powerOff polls vm waitSeconds) world (Settled vm world)
      (fun _ _ => True) := by
  have keeps := (powerOff_only polls vm waitSeconds).mono fun _ => HostOp.Stops.keeps
  apply upholds_only keeps ⟨rfl, rfl⟩
  intro x op before keeps held
  have next := keeps_settled keeps vm x before
  exact ⟨next.1.trans held.1, next.2.trans held.2⟩

theorem upholds_deleteUntilGone (vm : String) (attempts left : Nat) (lastError : String)
    (world : Hypervisor) :
    Upholds hypervisorStep (deleteUntilGone vm attempts left lastError) world
      (Reduced vm left world) (fun _ after => ¬ after.Shows vm) := by
  induction left generalizing lastError world with
  | zero => exact upholds_raise (Reduced.refl vm world)
  | succ left ih =>
    have deleted : ∀ x, Reduced vm 1 world (world.perform x (.unregistervm vm)) := by
      intro x
      constructor
      · intro machine member
        simp only [Hypervisor.perform, Command.registers] at member
        split at member
        · exact (List.mem_filter.mp member).1
        · exact member
      · simp [Hypervisor.perform, Hypervisor.deletes]
    apply upholds_bind (m := fun _ after => Reduced vm 1 world after)
    · apply upholds_run ((Reduced.refl vm world).more (Nat.zero_le _))
      · exact fun x => (deleted x).more (by omega)
      · exact fun x _ _ _ => deleted x
    · intro result middle _ once
      apply upholds_bind
      · apply (upholds_isRegistered vm middle).mono
        · exact fun after settled => (once.trans settled.reduced).more (by omega)
        · exact fun found after settled same => And.intro settled same
      · rintro found after - ⟨settled, same⟩
        have so := once.trans settled.reduced
        cases found with
        | true =>
          apply upholds_call (so.more (by omega))
          intro x
          apply (ih _ after).mono
          · exact fun last reduced => (so.trans reduced).more (by omega)
          · exact fun _ _ _ gone => gone
        | false =>
          apply upholds_done (so.more (by omega))
          simpa using mt same.mpr

-- `destroy` asks for at most its number of deletions, and returns only when the list does
-- not show the machine.
theorem upholds_destroy (polls : Nat) (vm : String) (attempts : Nat) (world : Hypervisor) :
    Upholds hypervisorStep (destroy polls vm attempts) world (Reduced vm attempts world)
      (fun _ after => ¬ after.Shows vm) := by
  apply upholds_bind
  · apply (upholds_isRegistered vm world).mono
    · exact fun after settled => settled.reduced.more (Nat.zero_le _)
    · exact fun found after settled same => And.intro settled same
  · rintro found after - ⟨settled, same⟩
    have so := settled.reduced
    cases found with
    | false =>
      apply upholds_done (so.more (Nat.zero_le _))
      simpa using mt same.mpr
    | true =>
      apply upholds_bind (m := fun _ last => Reduced vm 0 world last)
      · apply (upholds_powerOff polls vm 120 after).mono
        · exact fun last kept => (so.trans kept.reduced).more (Nat.zero_le _)
        · exact fun _ last kept _ => so.trans kept.reduced
      · intro _ last _ kept
        apply (upholds_deleteUntilGone vm attempts attempts "" last).mono
        · exact fun final reduced => (kept.trans reduced).more (by omega)
        · exact fun _ _ _ gone => gone

end VmDeploy.VirtualBox
