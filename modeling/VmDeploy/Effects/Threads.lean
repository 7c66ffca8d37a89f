import Mathlib.Logic.Relation
import VmDeploy.Effects.Program

/-! Threads that serve requests on a shared world, under a lock for one writer or many readers.

A request is served by a critical section. The operations of the sections take effect one at a
time, in any order that the lock permits, and others may change the world between them. A process
may stop at any point with all its threads, and go on with new requests. -/

set_option autoImplicit false

namespace Effects

inductive Mode where
  | shared
  | exclusive
  deriving DecidableEq, Repr

/-- Where a thread stands: before its section, with the rest of it to run, at its end and in the
world it left, or stopped with its process. -/
inductive Phase (I : Signature) (E A W : Type) where
  | waiting
  | inside (rest : Prog I E A)
  | ended (outcome : Outcome E A) (left : W)
  | stopped

structure Thread (I : Signature) (E A R W : Type) where
  request : R
  called : W
  phase : Phase I E A W

structure Pool (I : Signature) (E A R W : Type) where
  threads : List (Thread I E A R W)
  world : W

/-- The section of each request, the effect of each thread's operations on the world, and what
others may do to the world. -/
structure Server (I : Signature) (E A R W X : Type) where
  mode : R → Mode
  body : R → Prog I E A
  step : Nat → R → Step I W X
  outside : W → W → Prop

variable {I : Signature} {E A R W X : Type}

def Prog.ending? : Prog I E A → Option (Outcome E A)
  | .done value => some (.returned value)
  | .raise error => some (.raised error)
  | .halt => none
  | .call _ _ => none

def Prog.Completes : Prog I E A → Prop
  | .done _ => True
  | .raise _ => True
  | .halt => False
  | .call _ rest => ∀ reply, (rest reply).Completes

theorem Prog.Completes.bind {B : Type} {first : Prog I E A} {next : A → Prog I E B}
    (head : first.Completes) (tail : ∀ value, (next value).Completes) : (first.bind next).Completes := by
  induction first with
  | done value => exact tail value
  | raise error => trivial
  | halt => exact head
  | call op rest ih => exact fun reply => ih reply (head reply)

theorem Prog.completes_ofExcept (result : Except E A) : (ofExcept result : Prog I E A).Completes := by
  cases result <;> trivial

def Thread.Inside (thread : Thread I E A R W) : Prop :=
  ∃ rest, thread.phase = .inside rest

def Thread.unfinished (thread : Thread I E A R W) : Bool :=
  match thread.phase with
  | .waiting => true
  | .inside _ => true
  | .ended _ _ => false
  | .stopped => false

def Pool.unanswered (pool : Pool I E A R W) : Nat :=
  pool.threads.countP Thread.unfinished

def Thread.stop (thread : Thread I E A R W) : Thread I E A R W :=
  if thread.unfinished then { thread with phase := .stopped } else thread

def Pool.put (pool : Pool I E A R W) (who : Nat) (thread : Thread I E A R W)
    (phase : Phase I E A W) (world : W) : Pool I E A R W :=
  ⟨pool.threads.set who { thread with phase := phase }, world⟩

namespace Server

section Runs

variable (server : Server I E A R W X)

def Admits (pool : Pool I E A R W) (mode : Mode) : Prop :=
  ∀ thread ∈ pool.threads, thread.Inside → mode = .shared ∧ server.mode thread.request = .shared

/-- A thread takes the lock, carries out one operation, or gives the lock back and returns. -/
inductive Turn : Pool I E A R W → Pool I E A R W → Prop where
  | enter {pool : Pool I E A R W} {who : Nat} {thread : Thread I E A R W} :
      pool.threads[who]? = some thread → thread.phase = .waiting →
      server.Admits pool (server.mode thread.request) →
      Turn pool (pool.put who thread (.inside (server.body thread.request)) pool.world)
  | act {pool : Pool I E A R W} {who : Nat} {thread : Thread I E A R W} {op : I.Op}
      {rest : I.Reply op → Prog I E A} (x : X) :
      pool.threads[who]? = some thread → thread.phase = .inside (.call op rest) →
      Turn pool (pool.put who thread
        (.inside (rest (server.step who thread.request x op pool.world).1))
        (server.step who thread.request x op pool.world).2)
  | leave {pool : Pool I E A R W} {who : Nat} {thread : Thread I E A R W} {rest : Prog I E A}
      {outcome : Outcome E A} :
      pool.threads[who]? = some thread → thread.phase = .inside rest →
      rest.ending? = some outcome →
      Turn pool (pool.put who thread (.ended outcome pool.world) pool.world)

inductive Moves : Pool I E A R W → Pool I E A R W → Prop where
  | call {pool : Pool I E A R W} (request : R) :
      Moves pool ⟨pool.threads ++ [⟨request, pool.world, .waiting⟩], pool.world⟩
  | turn {pool next : Pool I E A R W} : server.Turn pool next → Moves pool next
  | stop {pool : Pool I E A R W} : Moves pool ⟨pool.threads.map Thread.stop, pool.world⟩
  | outside {pool : Pool I E A R W} {world : W} :
      server.outside pool.world world → Moves pool ⟨pool.threads, world⟩

inductive Reached (start : W) : Pool I E A R W → Prop where
  | start : Reached start ⟨[], start⟩
  | next {pool next : Pool I E A R W} : Reached start pool → server.Moves pool next → Reached start next

/-- Further steps of the threads that are there. -/
inductive Turns : Pool I E A R W → Pool I E A R W → Prop where
  | done {pool : Pool I E A R W} : Turns pool pool
  | turn {pool next last : Pool I E A R W} : server.Turn pool next → Turns next last → Turns pool last

end Runs

section Lock

variable {server : Server I E A R W X} {pool : Pool I E A R W}

theorem threads_put {who : Nat} {thread old : Thread I E A R W} {phase : Phase I E A W} {world : W}
    (there : pool.threads[who]? = some old) (other : Nat) :
    (pool.put who thread phase world).threads[other]? =
      if who = other then some { thread with phase := phase } else pool.threads[other]? := by
  have inside : who < pool.threads.length := (List.getElem?_eq_some_iff.mp there).1
  simp only [Pool.put, List.getElem?_set, inside, if_true]

def Exclusive (server : Server I E A R W X) (pool : Pool I E A R W) : Prop :=
  ∀ (first second : Nat) (one other : Thread I E A R W), pool.threads[first]? = some one →
    pool.threads[second]? = some other → one.Inside → other.Inside → server.mode one.request = .exclusive → first = second

theorem exclusive_put {who : Nat} {thread : Thread I E A R W} {phase : Phase I E A W} {world : W}
    (exclusive : server.Exclusive pool) (there : pool.threads[who]? = some thread)
    (inside : thread.Inside) : server.Exclusive (pool.put who thread phase world) := by
  have known : ∀ {other : Nat} {seen : Thread I E A R W},
      (pool.put who thread phase world).threads[other]? = some seen → seen.Inside →
      ∃ old, pool.threads[other]? = some old ∧ old.Inside ∧ old.request = seen.request := by
    intro other seen found within
    rw [threads_put there] at found
    split at found
    · next same =>
      cases found
      exact ⟨thread, same ▸ there, inside, rfl⟩
    · exact ⟨seen, found, within, rfl⟩
  intro first second one other at_first at_second one_inside other_inside writes
  obtain ⟨old, before, within, same⟩ := known at_first one_inside
  obtain ⟨old', before', within', -⟩ := known at_second other_inside
  exact exclusive first second old old' before before' within within' (same ▸ writes)

theorem not_inside_stop (thread : Thread I E A R W) : ¬ thread.stop.Inside := by
  rintro ⟨rest, phase⟩
  unfold Thread.stop at phase
  split at phase
  · cases phase
  · next finished =>
    rw [Thread.unfinished, phase] at finished
    exact finished rfl

theorem exclusive_moves {next : Pool I E A R W} (exclusive : server.Exclusive pool)
    (moves : server.Moves pool next) : server.Exclusive next := by
  cases moves with
  | call request =>
    have known : ∀ {who : Nat} {thread : Thread I E A R W},
        (pool.threads ++ [⟨request, pool.world, .waiting⟩])[who]? = some thread → thread.Inside →
        pool.threads[who]? = some thread := by
      intro who thread found inside
      by_cases old : who < pool.threads.length
      · rwa [List.getElem?_append_left old] at found
      · rw [List.getElem?_append_right (Nat.le_of_not_lt old), List.getElem?_singleton] at found
        split at found
        · cases found
          obtain ⟨rest, phase⟩ := inside
          cases phase
        · cases found
    intro first second one other at_first at_second within within' writes
    exact exclusive first second one other (known at_first within) (known at_second within')
      within within' writes
  | turn turn =>
    cases turn with
    | @enter who thread there waiting admits =>
      intro first second one other at_first at_second within within' writes
      rw [threads_put there] at at_first at_second
      split at at_first
      · next here =>
        split at at_second
        · next also => exact here.symm.trans also
        · cases at_first
          have shared := (admits other (List.mem_of_getElem? at_second) within').1
          rw [writes] at shared
          cases shared
      · split at at_second
        · have shared := (admits one (List.mem_of_getElem? at_first) within).2
          rw [writes] at shared
          cases shared
        · exact exclusive first second one other at_first at_second within within' writes
    | act x there phase => exact exclusive_put exclusive there ⟨_, phase⟩
    | leave there phase ending => exact exclusive_put exclusive there ⟨_, phase⟩
  | stop =>
    intro first second one other at_first at_second within
    rw [List.getElem?_map, Option.map_eq_some_iff] at at_first
    obtain ⟨thread, -, rfl⟩ := at_first
    exact absurd within (not_inside_stop thread)
  | outside => exact exclusive

theorem exclusive_start (server : Server I E A R W X) (start : W) :
    server.Exclusive (⟨[], start⟩ : Pool I E A R W) := by
  intro first second one other found
  cases found

end Lock

/-- What holds of the world at all times; what a request relies on before it begins; what its end
leaves, from the call through the end to now; what may happen to the world while a section is
inside; what the operations of a writer do to the world; and how later worlds follow. -/
structure Contract (E A R W : Type) where
  inv : W → Prop
  fresh : Nat → W → Prop
  done : Nat → R → W → Outcome E A → W → W → Prop
  between : W → W → Prop
  writes : Nat → W → W → Prop
  since : W → W → Prop

/-- Whatever happens between its operations and whatever these reply, the rest of a section keeps
the invariant, changes the world as it may, and ends as it should. -/
def Guards (step : Step I W X) (inv : W → Prop) (between may : W → W → Prop)
    (post : Outcome E A → W → Prop) : Prog I E A → W → Prop
  | .done value, w => ∀ w', between w w' → inv w' → post (.returned value) w'
  | .raise error, w => ∀ w', between w w' → inv w' → post (.raised error) w'
  | .halt, _ => False
  | .call op rest, w => ∀ w', between w w' → inv w' → ∀ x,
      inv (step x op w').2 ∧ may w' (step x op w').2 ∧
        Guards step inv between may post (rest (step x op w').1) (step x op w').2

section Guards

variable {step : Step I W X} {inv : W → Prop} {between may : W → W → Prop}

-- A section ends by a return or an error.
theorem Guards.concluded {returns : A → W → Prop} {raises : E → W → Prop}
    {post : Outcome E A → W → Prop} {p : Prog I E A} {w : W}
    (guards : Guards step inv between may (Concludes returns raises) p w)
    (returned : ∀ value w', inv w' → returns value w' → post (.returned value) w')
    (raised : ∀ error w', inv w' → raises error w' → post (.raised error) w') :
    Guards step inv between may post p w := by
  induction p generalizing w with
  | done value => exact fun w' later holds => returned value w' holds (guards w' later holds)
  | raise error => exact fun w' later holds => raised error w' holds (guards w' later holds)
  | halt => exact guards
  | call op rest ih =>
    intro w' later holds x
    obtain ⟨held, allowed, further⟩ := guards w' later holds x
    exact ⟨held, allowed, ih _ further⟩

theorem Guards.bind {B : Type} {middle : Outcome E A → W → Prop} {post : Outcome E B → W → Prop}
    {first : Prog I E A} {next : A → Prog I E B} {w : W} (refl : ∀ w, between w w) (holds : inv w)
    (head : Guards step inv between may middle first w)
    (returns : ∀ value w', inv w' → middle (.returned value) w' →
      Guards step inv between may post (next value) w')
    (raises : ∀ error w', inv w' → middle (.raised error) w' → post (.raised error) w') :
    Guards step inv between may post (first.bind next) w := by
  induction first generalizing w with
  | done value => exact returns value w holds (head w (refl w) holds)
  | raise error => exact fun w' later held => raises error w' held (head w' later held)
  | halt => exact head
  | call op rest ih =>
    intro w' later held x
    obtain ⟨kept, allowed, further⟩ := head w' later held x
    exact ⟨kept, allowed, ih _ kept further⟩

-- Sequencing, where every error is final.
theorem Guards.follow {B : Type} {middle : A → W → Prop} {raises : E → W → Prop}
    {returns : B → W → Prop} {first : Prog I E A} {next : A → Prog I E B} {w : W}
    (refl : ∀ w, between w w) (holds : inv w)
    (head : Guards step inv between may (Concludes middle raises) first w)
    (tail : ∀ value w', inv w' → middle value w' →
      Guards step inv between may (Concludes returns raises) (next value) w') :
    Guards step inv between may (Concludes returns raises) (first.bind next) w :=
  head.bind refl holds tail fun _ _ _ raised => raised

theorem Guards.later {post : Outcome E A → W → Prop} {rest : Prog I E A} {w w' : W}
    (trans : ∀ w w' w'', between w w' → between w' w'' → between w w'')
    (guards : Guards step inv between may post rest w) (passed : between w w') :
    Guards step inv between may post rest w' := by
  cases rest with
  | done value => exact fun last further => guards last (trans _ _ _ passed further)
  | raise error => exact fun last further => guards last (trans _ _ _ passed further)
  | halt => exact guards
  | call op rest => exact fun last further => guards last (trans _ _ _ passed further)

theorem Guards.ending {post : Outcome E A → W → Prop} {rest : Prog I E A} {w : W} {outcome : Outcome E A}
    (refl : ∀ w, between w w) (guards : Guards step inv between may post rest w) (holds : inv w)
    (ending : rest.ending? = some outcome) : post outcome w := by
  cases rest with
  | done value =>
    cases ending
    exact guards w (refl w) holds
  | raise error =>
    cases ending
    exact guards w (refl w) holds
  | halt => cases ending
  | call op rest => cases ending

end Guards

section Contract

variable (server : Server I E A R W X) (contract : Contract E A R W)

/-- What a section may do to the world, by its mode. -/
def Contract.may (who : Nat) : Mode → W → W → Prop
  | .shared => contract.between
  | .exclusive => contract.writes who

def Fulfils (who : Nat) (request : R) (called : W) (rest : Prog I E A) (w : W) : Prop :=
  Guards (server.step who request) contract.inv contract.between
    (contract.may who (server.mode request))
    (fun outcome left => contract.done who request called outcome left left) rest w

structure Lawful : Prop where
  refl : ∀ w, contract.between w w
  trans : ∀ w w' w'', contract.between w w' → contract.between w' w'' → contract.between w w''
  follows : ∀ w, contract.since w w
  later : ∀ w w' w'', contract.since w w' → contract.since w' w'' → contract.since w w''
  since_between : ∀ w w', contract.between w w' → contract.since w w'
  since_writes : ∀ who w w', contract.writes who w w' → contract.since w w'
  outside : ∀ w w', server.outside w w' → contract.inv w → contract.inv w' ∧ contract.between w w'
  fresh_between : ∀ who w w', contract.between w w' → contract.fresh who w → contract.fresh who w'
  fresh_writes : ∀ who other w w', who ≠ other → contract.writes other w w' →
    contract.fresh who w → contract.fresh who w'
  done_between : ∀ who request called outcome left w w', contract.between w w' →
    contract.done who request called outcome left w → contract.done who request called outcome left w'
  done_writes : ∀ who other request called outcome left w w', who ≠ other →
    contract.writes other w w' → contract.done who request called outcome left w →
    contract.done who request called outcome left w'
  begins : ∀ who request called w, contract.inv w → contract.fresh who w → contract.since called w →
    Fulfils server contract who request called (server.body request) w

def Stands (who : Nat) (thread : Thread I E A R W) (w : W) : Prop :=
  match thread.phase with
  | .waiting => contract.fresh who w
  | .inside rest => Fulfils server contract who thread.request thread.called rest w
  | .ended outcome left => contract.since thread.called left ∧
      contract.done who thread.request thread.called outcome left w
  | .stopped => True

structure Kept (pool : Pool I E A R W) : Prop where
  inv : contract.inv pool.world
  unborn : ∀ who, pool.threads.length ≤ who → contract.fresh who pool.world
  each : ∀ (who : Nat) (thread : Thread I E A R W), pool.threads[who]? = some thread →
    contract.since thread.called pool.world ∧ Stands server contract who thread pool.world
  exclusive : server.Exclusive pool

variable {server contract}

-- What a thread has kept stays so while others change the world between its operations.
theorem Stands.between (lawful : Lawful server contract) {who : Nat} {thread : Thread I E A R W}
    {w w' : W} (stands : Stands server contract who thread w) (later : contract.between w w') :
    Stands server contract who thread w' := by
  obtain ⟨request, called, phase⟩ := thread
  cases phase with
  | waiting => exact lawful.fresh_between who w w' later stands
  | inside rest => exact Guards.later lawful.trans stands later
  | ended outcome left =>
    exact ⟨stands.1, lawful.done_between who request called outcome left w w' later stands.2⟩
  | stopped => exact stands

-- A thread outside its section stands as before whatever a writer does.
theorem Stands.writes (lawful : Lawful server contract) {who other : Nat}
    {thread : Thread I E A R W} {w w' : W} (stands : Stands server contract who thread w)
    (apart : who ≠ other) (outside : ¬ thread.Inside) (writes : contract.writes other w w') :
    Stands server contract who thread w' := by
  obtain ⟨request, called, phase⟩ := thread
  cases phase with
  | waiting => exact lawful.fresh_writes who other w w' apart writes stands
  | inside rest => exact absurd ⟨rest, rfl⟩ outside
  | ended outcome left =>
    exact ⟨stands.1,
      lawful.done_writes who other request called outcome left w w' apart writes stands.2⟩
  | stopped => exact stands

theorem since_may (lawful : Lawful server contract) {who : Nat} {mode : Mode} {w w' : W}
    (may : contract.may who mode w w') : contract.since w w' := by
  cases mode with
  | shared => exact lawful.since_between w w' may
  | exclusive => exact lawful.since_writes who w w' may

theorem fresh_may (lawful : Lawful server contract) {who other : Nat} {mode : Mode} {w w' : W}
    (apart : who ≠ other) (may : contract.may other mode w w') (fresh : contract.fresh who w) :
    contract.fresh who w' := by
  cases mode with
  | shared => exact lawful.fresh_between who w w' may fresh
  | exclusive => exact lawful.fresh_writes who other w w' apart may fresh

theorem Stands.may (lawful : Lawful server contract) {who other : Nat}
    {thread : Thread I E A R W} {mode : Mode} {w w' : W}
    (stands : Stands server contract who thread w) (apart : who ≠ other)
    (outside : mode = .exclusive → ¬ thread.Inside) (may : contract.may other mode w w') :
    Stands server contract who thread w' := by
  cases mode with
  | shared => exact stands.between lawful may
  | exclusive => exact stands.writes lawful apart (outside rfl) may

-- A thread that moves on its own, within what it may do to the world.
theorem kept_put (lawful : Lawful server contract) {pool : Pool I E A R W} {who : Nat}
    {thread : Thread I E A R W} {phase : Phase I E A W} {world : W}
    (kept : Kept server contract pool) (there : pool.threads[who]? = some thread)
    (inside : thread.Inside) (holds : contract.inv world)
    (may : contract.may who (server.mode thread.request) pool.world world)
    (stands : Stands server contract who { thread with phase := phase } world) :
    Kept server contract (pool.put who thread phase world) where
  inv := holds
  unborn := by
    intro other beyond
    rw [Pool.put, List.length_set] at beyond
    have before := kept.unborn other beyond
    have apart : other ≠ who := by
      rintro rfl
      exact Nat.not_le.mpr (List.getElem?_eq_some_iff.mp there).1 beyond
    exact fresh_may lawful apart may before
  each := by
    intro other seen found
    have later := since_may lawful may
    rw [threads_put there] at found
    split at found
    · next same =>
      cases found
      obtain rfl := same
      exact ⟨lawful.later _ _ _ (kept.each _ _ there).1 later, stands⟩
    · next apart =>
      obtain ⟨since, before⟩ := kept.each other seen found
      refine ⟨lawful.later _ _ _ since later, before.may lawful (Ne.symm apart) ?_ may⟩
      intro exclusive within
      exact apart (kept.exclusive who other thread seen there found inside within exclusive)
  exclusive := exclusive_put kept.exclusive there inside

theorem kept_moves (lawful : Lawful server contract) {pool next : Pool I E A R W}
    (kept : Kept server contract pool) (moves : server.Moves pool next) :
    Kept server contract next := by
  have exclusive := exclusive_moves kept.exclusive moves
  cases moves with
  | call request =>
    refine ⟨kept.inv, ?_, ?_, exclusive⟩
    · intro who beyond
      rw [List.length_append] at beyond
      exact kept.unborn who (Nat.le_of_add_right_le beyond)
    · intro who thread found
      by_cases old : who < pool.threads.length
      · exact kept.each who thread (by rwa [List.getElem?_append_left old] at found)
      · rw [List.getElem?_append_right (Nat.le_of_not_lt old), List.getElem?_singleton] at found
        split at found
        · cases found
          exact ⟨lawful.follows _, kept.unborn who (Nat.le_of_not_lt old)⟩
        · cases found
  | turn turn =>
    cases turn with
    | @enter who thread there waiting admits =>
      obtain ⟨since, fresh⟩ := kept.each who thread there
      rw [Stands, waiting] at fresh
      refine ⟨kept.inv, ?_, ?_, exclusive⟩
      · intro other beyond
        rw [Pool.put, List.length_set] at beyond
        exact kept.unborn other beyond
      · intro other seen found
        rw [threads_put there] at found
        split at found
        · next same =>
          cases found
          obtain rfl := same
          exact ⟨since, lawful.begins _ _ _ _ kept.inv fresh since⟩
        · exact kept.each other seen found
    | @act who thread op rest x there phase =>
      obtain ⟨since, fulfils⟩ := kept.each who thread there
      rw [Stands, phase] at fulfils
      obtain ⟨holds, may, further⟩ := fulfils pool.world (lawful.refl _) kept.inv x
      exact kept_put lawful kept there ⟨_, phase⟩ holds may further
    | @leave who thread rest outcome there phase ending =>
      obtain ⟨since, fulfils⟩ := kept.each who thread there
      rw [Stands, phase] at fulfils
      have ended := Guards.ending lawful.refl fulfils kept.inv ending
      refine ⟨kept.inv, ?_, ?_, exclusive⟩
      · intro other beyond
        rw [Pool.put, List.length_set] at beyond
        exact kept.unborn other beyond
      · intro other seen found
        rw [threads_put there] at found
        split at found
        · next same =>
          cases found
          obtain rfl := same
          exact ⟨since, since, ended⟩
        · exact kept.each other seen found
  | stop =>
    refine ⟨kept.inv, ?_, ?_, exclusive⟩
    · intro who beyond
      rw [List.length_map] at beyond
      exact kept.unborn who beyond
    · intro who thread found
      rw [List.getElem?_map, Option.map_eq_some_iff] at found
      obtain ⟨old, there, rfl⟩ := found
      obtain ⟨since, stands⟩ := kept.each who old there
      unfold Thread.stop
      split
      · exact ⟨since, trivial⟩
      · exact ⟨since, stands⟩
  | outside changed =>
    obtain ⟨holds, between⟩ := lawful.outside _ _ changed kept.inv
    refine ⟨holds, ?_, ?_, exclusive⟩
    · intro who beyond
      exact lawful.fresh_between who _ _ between (kept.unborn who beyond)
    · intro who thread found
      obtain ⟨since, stands⟩ := kept.each who thread found
      exact ⟨lawful.later _ _ _ since (lawful.since_between _ _ between), stands.between lawful between⟩

-- What holds of the start holds, with every request's end, of every pool reached.
theorem kept_reached (lawful : Lawful server contract) {start : W} {pool : Pool I E A R W}
    (holds : contract.inv start) (fresh : ∀ who, contract.fresh who start)
    (reached : server.Reached start pool) : Kept server contract pool := by
  induction reached with
  | start =>
    refine ⟨holds, fun who _ => fresh who, ?_, exclusive_start server start⟩
    intro who thread found
    cases found
  | next _ moves kept => exact kept_moves lawful kept moves

theorem called_moves {pool next : Pool I E A R W} (moves : server.Moves pool next) {who : Nat}
    {thread : Thread I E A R W} (there : next.threads[who]? = some thread) :
    (∃ old, pool.threads[who]? = some old ∧ old.called = thread.called) ∨
      pool.threads.length ≤ who ∧ thread.called = pool.world := by
  have put : ∀ {other : Nat} {moved : Thread I E A R W} {phase : Phase I E A W} {world : W},
      pool.threads[other]? = some moved →
      (pool.put other moved phase world).threads[who]? = some thread →
      ∃ old, pool.threads[who]? = some old ∧ old.called = thread.called := by
    intro other moved phase world before after
    rw [threads_put before] at after
    split at after
    · next same =>
      cases after
      exact ⟨moved, same ▸ before, rfl⟩
    · exact ⟨thread, after, rfl⟩
  cases moves with
  | call request =>
    by_cases old : who < pool.threads.length
    · rw [List.getElem?_append_left old] at there
      exact .inl ⟨thread, there, rfl⟩
    · rw [List.getElem?_append_right (Nat.le_of_not_lt old), List.getElem?_singleton] at there
      split at there
      · cases there
        exact .inr ⟨Nat.le_of_not_lt old, rfl⟩
      · cases there
  | turn turn =>
    cases turn with
    | enter before => exact .inl (put before there)
    | act x before => exact .inl (put before there)
    | leave before => exact .inl (put before there)
  | stop =>
    rw [List.getElem?_map, Option.map_eq_some_iff] at there
    obtain ⟨old, found, rfl⟩ := there
    refine .inl ⟨old, found, ?_⟩
    rw [Thread.stop]
    split <;> rfl
  | outside => exact .inl ⟨thread, there, rfl⟩

theorem since_moves (lawful : Lawful server contract) {pool next : Pool I E A R W}
    (kept : Kept server contract pool) (moves : server.Moves pool next) :
    contract.since pool.world next.world := by
  cases moves with
  | call request => exact lawful.follows _
  | turn turn =>
    cases turn with
    | enter there => exact lawful.follows _
    | @act who thread op rest x there phase =>
      obtain ⟨-, fulfils⟩ := kept.each who thread there
      rw [Stands, phase] at fulfils
      exact since_may lawful (fulfils pool.world (lawful.refl _) kept.inv x).2.1
    | leave there => exact lawful.follows _
  | stop => exact lawful.follows _
  | outside changed => exact lawful.since_between _ _ (lawful.outside _ _ changed kept.inv).2

-- A request that is new since a pool was called in a world that follows the one of that pool.
theorem since_called (lawful : Lawful server contract) {pool last : Pool I E A R W}
    (kept : Kept server contract pool) (later : Relation.ReflTransGen server.Moves pool last)
    {who : Nat} {thread : Thread I E A R W} (new : pool.threads.length ≤ who)
    (there : last.threads[who]? = some thread) : contract.since pool.world thread.called := by
  have follows : Kept server contract last ∧ contract.since pool.world last.world ∧
      ∀ thread, last.threads[who]? = some thread → contract.since pool.world thread.called := by
    clear there
    induction later with
    | refl =>
      refine ⟨kept, lawful.follows _, ?_⟩
      intro thread there
      exact absurd (List.getElem?_eq_some_iff.mp there).1 (Nat.not_lt.mpr new)
    | @tail middle last _ moves ih =>
      obtain ⟨held, since, each⟩ := ih
      refine ⟨kept_moves lawful held moves, lawful.later _ _ _ since (since_moves lawful held moves), ?_⟩
      intro thread there
      rcases called_moves moves there with ⟨old, found, same⟩ | ⟨-, here⟩
      · exact same ▸ each old found
      · exact here.symm ▸ since
  exact follows.2.2 thread there

end Contract

theorem Reached.later {server : Server I E A R W X} {start : W} {pool last : Pool I E A R W}
    (reached : server.Reached start pool)
    (later : Relation.ReflTransGen server.Moves pool last) : server.Reached start last := by
  induction later with
  | refl => exact reached
  | tail _ moves ih => exact .next ih moves

section Progress

variable {server : Server I E A R W X}

theorem Turns.trans {pool middle last : Pool I E A R W} (first : server.Turns pool middle)
    (second : server.Turns middle last) : server.Turns pool last := by
  induction first with
  | done => exact second
  | turn turn _ ih => exact .turn turn (ih second)

def Complete (pool : Pool I E A R W) : Prop :=
  ∀ thread ∈ pool.threads, ∀ rest, thread.phase = .inside rest → rest.Completes

theorem complete_put {pool : Pool I E A R W} {who : Nat} {thread : Thread I E A R W}
    {phase : Phase I E A W} {world : W} (complete : Complete pool)
    (next : ∀ rest, phase = .inside rest → rest.Completes) :
    Complete (pool.put who thread phase world) := by
  intro other member rest inside
  rcases List.mem_or_eq_of_mem_set member with old | rfl
  · exact complete other old rest inside
  · exact next rest inside

theorem complete_moves (completes : ∀ request, (server.body request).Completes)
    {pool next : Pool I E A R W} (complete : Complete pool) (moves : server.Moves pool next) :
    Complete next := by
  cases moves with
  | call request =>
    intro thread member rest inside
    rcases List.mem_append.mp member with old | new
    · exact complete thread old rest inside
    · rw [List.mem_singleton.mp new] at inside
      cases inside
  | turn turn =>
    cases turn with
    | enter there waiting admits =>
      refine complete_put complete fun rest same => ?_
      cases same
      exact completes _
    | act x there phase =>
      refine complete_put complete fun rest same => ?_
      cases same
      exact complete _ (List.mem_of_getElem? there) _ phase _
    | leave there phase ending =>
      refine complete_put complete fun rest same => ?_
      cases same
  | stop =>
    intro thread member rest inside
    obtain ⟨old, -, rfl⟩ := List.mem_map.mp member
    exact absurd ⟨rest, inside⟩ (not_inside_stop old)
  | outside changed => exact complete

theorem complete_reached (completes : ∀ request, (server.body request).Completes) {start : W}
    {pool : Pool I E A R W} (reached : server.Reached start pool) : Complete pool := by
  induction reached with
  | start =>
    intro thread member
    cases member
  | next _ moves complete => exact complete_moves completes complete moves

-- A thread that nothing disturbs runs the rest of its section as a program of its own.
theorem turns_alone (rest : Prog I E A) {pool : Pool I E A R W} {who : Nat}
    {thread : Thread I E A R W} {script : List X} {outcome : Outcome E A} {left : W}
    (there : pool.threads[who]? = some thread) (phase : thread.phase = .inside rest)
    (runs : rest.eval (server.step who thread.request) pool.world script = (outcome, left))
    (ends : outcome ≠ .stopped) :
    server.Turns pool (pool.put who thread (.ended outcome left) left) := by
  induction rest generalizing pool thread script with
  | done value =>
    cases runs
    exact .turn (.leave there phase rfl) .done
  | raise error =>
    cases runs
    exact .turn (.leave there phase rfl) .done
  | halt =>
    cases runs
    exact absurd rfl ends
  | call op rest ih =>
    cases script with
    | nil =>
      cases runs
      exact absurd rfl ends
    | cons x script =>
      let answer := server.step who thread.request x op pool.world
      have here : (pool.put who thread (.inside (rest answer.1)) answer.2).threads[who]? =
          some { thread with phase := .inside (rest answer.1) } :=
        (threads_put there who).trans (if_pos rfl)
      have further := ih answer.1 here rfl runs
      rw [Pool.put, Pool.put, List.set_set] at further
      exact .turn (.act x there phase) further

-- A value that is computed at the end needs no further answers.
theorem eval_bind_done {B : Type} {step : Step I W X} {p : Prog I E A} {w left : W} {script : List X}
    {value : A} (returns : p.eval step w script = (.returned value, left)) (result : A → B) :
    (p.bind fun value => (.done (result value) : Prog I E B)).eval step w script =
      (.returned (result value), left) := by
  induction p generalizing w script with
  | done value =>
    cases returns
    rfl
  | raise error => cases returns
  | halt => cases returns
  | call op rest ih =>
    cases script with
    | nil => cases returns
    | cons x script => exact ih (step x op w).1 returns

theorem eval_completes [Nonempty X] (step : Step I W X) (p : Prog I E A) (completes : p.Completes)
    (w : W) : ∃ script, (p.eval step w script).1 ≠ .stopped := by
  induction p generalizing w with
  | done value => exact ⟨[], fun same => by cases same⟩
  | raise error => exact ⟨[], fun same => by cases same⟩
  | halt => exact completes.elim
  | call op rest ih =>
    obtain ⟨x⟩ := ‹Nonempty X›
    obtain ⟨script, ends⟩ := ih (step x op w).1 (completes _) (step x op w).2
    exact ⟨x :: script, ends⟩

-- A section that is under way can be run to its end, by its own thread alone.
theorem finish_inside [Nonempty X] (rest : Prog I E A) (completes : rest.Completes)
    {pool : Pool I E A R W} {who : Nat} {thread : Thread I E A R W}
    (there : pool.threads[who]? = some thread) (phase : thread.phase = .inside rest) :
    ∃ last outcome left, server.Turns pool last ∧
      last.threads = pool.threads.set who { thread with phase := .ended outcome left } := by
  obtain ⟨script, ends⟩ := eval_completes (server.step who thread.request) rest completes pool.world
  exact ⟨_, _, _, turns_alone rest there phase rfl ends, rfl⟩

theorem unanswered_put {pool : Pool I E A R W} {who : Nat} {thread : Thread I E A R W}
    {threads : List (Thread I E A R W)} {outcome : Outcome E A} {left : W}
    (there : pool.threads[who]? = some thread) (unfinished : thread.unfinished = true)
    (after : threads = pool.threads.set who { thread with phase := .ended outcome left }) :
    threads.countP Thread.unfinished < pool.unanswered := by
  obtain ⟨inside, same⟩ := List.getElem?_eq_some_iff.mp there
  have counted : 0 < pool.unanswered :=
    List.countP_pos_iff.mpr ⟨thread, List.mem_of_getElem? there, unfinished⟩
  rw [after, List.countP_set inside, same, unfinished, Pool.unanswered] at *
  simp only [Thread.unfinished, if_true, Bool.false_eq_true, if_false]
  omega

theorem complete_turns (completes : ∀ request, (server.body request).Completes)
    {pool last : Pool I E A R W} (complete : Complete pool) (turns : server.Turns pool last) :
    Complete last := by
  induction turns with
  | done => exact complete
  | turn turn _ ih => exact ih (complete_moves completes complete (.turn turn))

-- While a request is unanswered, its thread or that of another can bring one to its end.
theorem finish_one [Nonempty X] (completes : ∀ request, (server.body request).Completes)
    {pool : Pool I E A R W} (complete : Complete pool) (left : 0 < pool.unanswered) :
    ∃ last, server.Turns pool last ∧ last.unanswered < pool.unanswered := by
  by_cases held : ∃ thread ∈ pool.threads, thread.Inside
  · obtain ⟨thread, member, rest, phase⟩ := held
    obtain ⟨who, there⟩ := List.mem_iff_getElem?.mp member
    obtain ⟨last, outcome, world, turns, threads⟩ :=
      @finish_inside _ _ _ _ _ _ server _ rest (complete thread member rest phase) _ _ _ there phase
    exact ⟨last, turns, unanswered_put there (by rw [Thread.unfinished, phase]) threads⟩
  · obtain ⟨thread, member, unfinished⟩ := List.countP_pos_iff.mp left
    obtain ⟨who, there⟩ := List.mem_iff_getElem?.mp member
    have waiting : thread.phase = .waiting := by
      cases phase : thread.phase with
      | waiting => rfl
      | inside rest => exact absurd ⟨thread, member, rest, phase⟩ held
      | ended outcome left =>
        rw [Thread.unfinished, phase] at unfinished
        cases unfinished
      | stopped =>
        rw [Thread.unfinished, phase] at unfinished
        cases unfinished
    have admits : server.Admits pool (server.mode thread.request) :=
      fun other among within => absurd ⟨other, among, within⟩ held
    let body := server.body thread.request
    have here : (pool.put who thread (.inside body) pool.world).threads[who]? =
        some { thread with phase := .inside body } :=
      (threads_put there who).trans (if_pos rfl)
    obtain ⟨last, outcome, world, turns, threads⟩ :=
      @finish_inside _ _ _ _ _ _ server _ body (completes _) _ _ _ here rfl
    have after : last.threads = pool.threads.set who { thread with phase := .ended outcome world } := by
      rw [threads, Pool.put, List.set_set]
    exact ⟨last, .turn (.enter there waiting admits) turns, unanswered_put there unfinished after⟩

-- From every pool, its threads alone can bring every request to an end.
theorem finish [Nonempty X] (completes : ∀ request, (server.body request).Completes)
    {pool : Pool I E A R W} (complete : Complete pool) :
    ∃ last, server.Turns pool last ∧ last.unanswered = 0 := by
  generalize size : pool.unanswered = count
  induction count using Nat.strongRecOn generalizing pool with
  | ind count ih =>
    rcases Nat.eq_zero_or_pos pool.unanswered with none | some
    · exact ⟨pool, .done, none⟩
    · obtain ⟨next, turns, fewer⟩ := finish_one completes complete some
      obtain ⟨last, further, none⟩ :=
        ih next.unanswered (size ▸ fewer) (complete_turns completes complete turns) rfl
      exact ⟨last, turns.trans further, none⟩

theorem turn_thread {pool next : Pool I E A R W} (turn : server.Turn pool next) {who : Nat}
    {thread : Thread I E A R W} (there : pool.threads[who]? = some thread)
    (alive : thread.phase ≠ .stopped) :
    ∃ further, next.threads[who]? = some further ∧ further.request = thread.request ∧
      further.phase ≠ .stopped := by
  have put : ∀ {other : Nat} {moved : Thread I E A R W} {phase : Phase I E A W} {world : W},
      pool.threads[other]? = some moved → phase ≠ .stopped →
      ∃ further, (pool.put other moved phase world).threads[who]? = some further ∧
        further.request = thread.request ∧ further.phase ≠ .stopped := by
    intro other moved phase world before running
    rw [threads_put before]
    split
    · next same =>
      rw [same, there] at before
      cases before
      exact ⟨_, rfl, rfl, running⟩
    · exact ⟨thread, there, rfl, alive⟩
  cases turn with
  | enter before => exact put before fun same => by cases same
  | act x before => exact put before fun same => by cases same
  | leave before => exact put before fun same => by cases same

theorem Turns.thread {pool last : Pool I E A R W} (turns : server.Turns pool last) {who : Nat}
    {thread : Thread I E A R W} (there : pool.threads[who]? = some thread)
    (alive : thread.phase ≠ .stopped) :
    ∃ further, last.threads[who]? = some further ∧ further.request = thread.request ∧
      further.phase ≠ .stopped := by
  induction turns generalizing thread with
  | done => exact ⟨thread, there, rfl, alive⟩
  | turn turn _ ih =>
    obtain ⟨next, found, same, running⟩ := turn_thread turn there alive
    obtain ⟨further, last, again, ends⟩ := ih found running
    exact ⟨further, last, again.trans same, ends⟩

theorem Turns.moves {pool last : Pool I E A R W} (turns : server.Turns pool last) :
    Relation.ReflTransGen server.Moves pool last := by
  induction turns with
  | done => exact .refl
  | turn turn _ ih => exact .head (.turn turn) ih

-- While no section is under way, a new request is served as if it were alone.
theorem serve_alone {pool : Pool I E A R W} (idle : ∀ thread ∈ pool.threads, ¬ thread.Inside)
    {request : R} {script : List X} {outcome : Outcome E A} {left : W}
    (runs : (server.body request).eval (server.step pool.threads.length request) pool.world script =
      (outcome, left)) (ends : outcome ≠ .stopped) :
    Relation.ReflTransGen server.Moves pool
      ⟨pool.threads ++ [⟨request, pool.world, .ended outcome left⟩], left⟩ := by
  let called : Pool I E A R W := ⟨pool.threads ++ [⟨request, pool.world, .waiting⟩], pool.world⟩
  let entered := called.put pool.threads.length ⟨request, pool.world, .waiting⟩
    (.inside (server.body request)) pool.world
  have there : called.threads[pool.threads.length]? = some ⟨request, pool.world, .waiting⟩ :=
    List.getElem?_concat_length
  have here : entered.threads[pool.threads.length]? =
      some ⟨request, pool.world, .inside (server.body request)⟩ :=
    (threads_put there _).trans (if_pos rfl)
  have admits : server.Admits called (server.mode request) := by
    intro thread member inside
    rcases List.mem_append.mp member with old | new
    · exact absurd inside (idle thread old)
    · rw [List.mem_singleton.mp new] at inside
      obtain ⟨rest, phase⟩ := inside
      cases phase
  have last : entered.put pool.threads.length ⟨request, pool.world, .inside (server.body request)⟩
      (.ended outcome left) left =
      ⟨pool.threads ++ [⟨request, pool.world, .ended outcome left⟩], left⟩ := by
    simp [entered, called, Pool.put]
  have turns := turns_alone (server.body request) here rfl runs ends
  rw [last] at turns
  exact .head (.call request) (.head (.turn (.enter there rfl admits)) turns.moves)

-- From every pool, its threads alone can answer every request that is not cut off.
theorem answer_all [Nonempty X] (completes : ∀ request, (server.body request).Completes)
    {pool : Pool I E A R W} (complete : Complete pool) :
    ∃ last, server.Turns pool last ∧ ∀ (who : Nat) (thread : Thread I E A R W),
      pool.threads[who]? = some thread → thread.phase ≠ .stopped →
        ∃ done outcome left, last.threads[who]? = some done ∧
          done.request = thread.request ∧ done.phase = .ended outcome left := by
  obtain ⟨last, turns, none⟩ := finish completes complete
  refine ⟨last, turns, ?_⟩
  intro who thread there alive
  obtain ⟨done, found, same, running⟩ := turns.thread there alive
  have finished : done.unfinished ≠ true :=
    List.countP_eq_zero.mp none done (List.mem_of_getElem? found)
  cases phase : done.phase with
  | waiting =>
    rw [Thread.unfinished, phase] at finished
    exact absurd rfl finished
  | inside rest =>
    rw [Thread.unfinished, phase] at finished
    exact absurd rfl finished
  | ended outcome left => exact ⟨done, outcome, left, found, same, phase⟩
  | stopped => exact absurd phase running

end Progress

end Server

end Effects
