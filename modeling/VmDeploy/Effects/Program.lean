import Mathlib.Logic.Basic

/-! Programs that obtain every effect from an environment, and rules for all of
the environment's behaviours.

A program names an operation and continues with the reply. The environment is a
step function driven by a script of choices, so a statement about every script is
a statement about every outcome of every operation. A script that ends early
stops the program between two operations.
-/

set_option autoImplicit false

namespace Effects

/-- Operations a program may request, each with the type of its reply. -/
structure Signature where
  Op : Type
  Reply : Op → Type

def Signature.sum (I J : Signature) : Signature where
  Op := I.Op ⊕ J.Op
  Reply
    | .inl op => I.Reply op
    | .inr op => J.Reply op

inductive Prog (I : Signature) (E A : Type) where
  | done : A → Prog I E A
  | raise : E → Prog I E A
  | halt : Prog I E A
  | call : (op : I.Op) → (I.Reply op → Prog I E A) → Prog I E A

/-- How a run ends. A stopped run was interrupted, or never comes back. -/
inductive Outcome (E A : Type) where
  | returned : A → Outcome E A
  | raised : E → Outcome E A
  | stopped : Outcome E A
  deriving DecidableEq, Repr

namespace Prog

variable {I J : Signature} {E A B : Type}

def bind (first : Prog I E A) (next : A → Prog I E B) : Prog I E B :=
  match first with
  | .done value => next value
  | .raise error => .raise error
  | .halt => .halt
  | .call op rest => .call op (fun reply => (rest reply).bind next)

instance : Monad (Prog I E) where
  pure := .done
  bind := bind

def perform (op : I.Op) : Prog I E (I.Reply op) :=
  .call op .done

def ofExcept : Except E A → Prog I E A
  | .ok value => .done value
  | .error error => .raise error

/-- `try body finally last`: an error of `last` replaces the way `body` ended. -/
def ensuring (body : Prog I E A) (last : Prog I E Unit) : Prog I E A :=
  match body with
  | .done value => last.bind (fun _ => .done value)
  | .raise error => last.bind (fun _ => .raise error)
  | .halt => .halt
  | .call op rest => .call op (fun reply => (rest reply).ensuring last)

/-- `try body except`: errors the handler does not take are raised again. -/
def catching (body : Prog I E A) (handler : E → Option (Prog I E A)) : Prog I E A :=
  match body with
  | .done value => .done value
  | .raise error => (handler error).getD (.raise error)
  | .halt => .halt
  | .call op rest => .call op (fun reply => (rest reply).catching handler)

/-- Run a program of the left environment beside another environment. -/
def liftLeft : Prog I E A → Prog (I.sum J) E A
  | .done value => .done value
  | .raise error => .raise error
  | .halt => .halt
  | .call op rest => .call (Sum.inl op : (I.sum J).Op) (fun reply => (rest reply).liftLeft)

def liftRight : Prog J E A → Prog (I.sum J) E A
  | .done value => .done value
  | .raise error => .raise error
  | .halt => .halt
  | .call op rest => .call (Sum.inr op : (I.sum J).Op) (fun reply => (rest reply).liftRight)

/-- Carry out every request by a program of finer requests. -/
def refine (how : (op : I.Op) → Prog J E (I.Reply op)) : Prog I E A → Prog J E A
  | .done value => .done value
  | .raise error => .raise error
  | .halt => .halt
  | .call op rest => (how op).bind fun reply => (rest reply).refine how

def Only (P : I.Op → Prop) : Prog I E A → Prop
  | .call op rest => P op ∧ ∀ reply, Only P (rest reply)
  | _ => True

def Raises (P : E → Prop) : Prog I E A → Prop
  | .raise error => P error
  | .call _ rest => ∀ reply, Raises P (rest reply)
  | _ => True

@[simp] theorem pure_eq (value : A) : (pure value : Prog I E A) = .done value := rfl

@[simp] theorem bind_eq (first : Prog I E A) (next : A → Prog I E B) :
    (first >>= next) = first.bind next := rfl

theorem bind_assoc {C : Type} (first : Prog I E A) (next : A → Prog I E B) (last : B → Prog I E C) :
    (first.bind next).bind last = first.bind fun value => (next value).bind last := by
  induction first with
  | done value => rfl
  | raise error => rfl
  | halt => rfl
  | call op rest ih => exact congrArg (Prog.call op) (funext ih)

theorem refine_bind (how : (op : I.Op) → Prog J E (I.Reply op)) (first : Prog I E A)
    (next : A → Prog I E B) :
    (first.bind next).refine how = (first.refine how).bind fun value => (next value).refine how := by
  induction first with
  | done value => rfl
  | raise error => rfl
  | halt => rfl
  | call op rest ih =>
    rw [bind, refine, refine, bind_assoc]
    exact congrArg _ (funext ih)

theorem Only.bind {P : I.Op → Prop} {first : Prog I E A} {next : A → Prog I E B}
    (head : first.Only P) (tail : ∀ value, (next value).Only P) : (first.bind next).Only P := by
  induction first with
  | done value => exact tail value
  | raise error => trivial
  | halt => trivial
  | call op rest ih => exact ⟨head.1, fun reply => ih reply (head.2 reply)⟩

theorem Raises.bind {P : E → Prop} {first : Prog I E A} {next : A → Prog I E B}
    (head : first.Raises P) (tail : ∀ value, (next value).Raises P) :
    (first.bind next).Raises P := by
  induction first with
  | done value => exact tail value
  | raise error => exact head
  | halt => trivial
  | call op rest ih => exact fun reply => ih reply (head reply)

theorem Only.ensuring {P : I.Op → Prop} {body : Prog I E A} {last : Prog I E Unit}
    (head : body.Only P) (closes : last.Only P) : (body.ensuring last).Only P := by
  induction body with
  | done value => exact closes.bind fun _ => trivial
  | raise error => exact closes.bind fun _ => trivial
  | halt => trivial
  | call op rest ih => exact ⟨head.1, fun reply => ih reply (head.2 reply)⟩

theorem Only.catching {P : I.Op → Prop} {body : Prog I E A} {handler : E → Option (Prog I E A)}
    (head : body.Only P) (handles : ∀ error, ∀ p ∈ handler error, p.Only P) :
    (body.catching handler).Only P := by
  induction body with
  | done value => trivial
  | raise error =>
    rw [Prog.catching]
    cases handled : handler error with
    | none => trivial
    | some p => exact handles error p handled
  | halt => trivial
  | call op rest ih => exact ⟨head.1, fun reply => ih reply (head.2 reply)⟩

theorem Only.mono {P Q : I.Op → Prop} {p : Prog I E A} (only : p.Only P)
    (weaken : ∀ op, P op → Q op) : p.Only Q := by
  induction p with
  | done value => trivial
  | raise error => trivial
  | halt => trivial
  | call op rest ih => exact ⟨weaken op only.1, fun reply => ih reply (only.2 reply)⟩

theorem only_liftLeft {P : I.Op → Prop} {Q : J.Op → Prop} {p : Prog I E A} (only : p.Only P) :
    (liftLeft p : Prog (I.sum J) E A).Only (Sum.elim P Q) := by
  induction p with
  | done value => trivial
  | raise error => trivial
  | halt => trivial
  | call op rest ih => exact ⟨only.1, fun reply => ih reply (only.2 reply)⟩

theorem only_liftRight {P : I.Op → Prop} {Q : J.Op → Prop} {p : Prog J E A} (only : p.Only Q) :
    (liftRight p : Prog (I.sum J) E A).Only (Sum.elim P Q) := by
  induction p with
  | done value => trivial
  | raise error => trivial
  | halt => trivial
  | call op rest ih => exact ⟨only.1, fun reply => ih reply (only.2 reply)⟩

theorem raises_liftLeft {P : E → Prop} {p : Prog I E A} (raises : p.Raises P) :
    (liftLeft p : Prog (I.sum J) E A).Raises P := by
  induction p with
  | done value => trivial
  | raise error => exact raises
  | halt => trivial
  | call op rest ih => exact fun reply => ih reply (raises reply)

theorem only_true (p : Prog I E A) : p.Only (fun _ => True) := by
  induction p with
  | done value => trivial
  | raise error => trivial
  | halt => trivial
  | call op rest ih => exact ⟨trivial, ih⟩

end Prog

/-- One environment: a choice fixes the reply and what becomes of the world. -/
abbrev Step (I : Signature) (W X : Type) := X → (op : I.Op) → W → I.Reply op × W

variable {I J : Signature} {E A B W X Y : Type}

/-- Run against a script. An operation without a choice left is never answered. -/
def Prog.eval (step : Step I W X) : Prog I E A → W → List X → Outcome E A × W
  | .done value, w, _ => (.returned value, w)
  | .raise error, w, _ => (.raised error, w)
  | .halt, w, _ => (.stopped, w)
  | .call _ _, w, [] => (.stopped, w)
  | .call op rest, w, x :: script =>
      let answer := step x op w
      (rest answer.1).eval step answer.2 script

def Prog.execute (answer : (op : I.Op) → W → I.Reply op × W) : Prog I E A → W → Outcome E A × W
  | .done value, w => (.returned value, w)
  | .raise error, w => (.raised error, w)
  | .halt, w => (.stopped, w)
  | .call op rest, w => (rest (answer op w).1).execute answer (answer op w).2

/-- `post` holds of the ending and the final world whatever the environment chooses. -/
def Always (step : Step I W X) (p : Prog I E A) (w : W) (post : Outcome E A → W → Prop) : Prop :=
  ∀ script, post (p.eval step w script).1 (p.eval step w script).2

def Step.sum (left : Step I W X) (right : Step J W Y) : Step (I.sum J) W (X × Y)
  | x, .inl op, w => left x.1 op w
  | x, .inr op, w => right x.2 op w

/-- An environment that acts on a part of a larger world. -/
def Step.focus {V : Type} (step : Step I V X) (get : W → V) (set : W → V → W) : Step I W X :=
  fun x op w => ((step x op (get w)).1, set w (step x op (get w)).2)

section Rules

variable {step : Step I W X}

theorem Always.mono {p : Prog I E A} {w : W} {post weaker : Outcome E A → W → Prop}
    (always : Always step p w post) (weaken : ∀ outcome w', post outcome w' → weaker outcome w') :
    Always step p w weaker :=
  fun script => weaken _ _ (always script)

theorem Always.and {p : Prog I E A} {w : W} {post other : Outcome E A → W → Prop}
    (first : Always step p w post) (second : Always step p w other) :
    Always step p w (fun outcome w' => post outcome w' ∧ other outcome w') :=
  fun script => ⟨first script, second script⟩

theorem always_done {value : A} {w : W} {post : Outcome E A → W → Prop}
    (here : post (.returned value) w) : Always step (.done value) w post :=
  fun _ => here

theorem always_raise {error : E} {w : W} {post : Outcome E A → W → Prop}
    (here : post (.raised error) w) : Always step (.raise error) w post :=
  fun _ => here

theorem always_halt {w : W} {post : Outcome E A → W → Prop}
    (here : post .stopped w) : Always step (.halt : Prog I E A) w post :=
  fun _ => here

theorem always_call {op : I.Op} {rest : I.Reply op → Prog I E A} {w : W}
    {post : Outcome E A → W → Prop} (here : post .stopped w)
    (next : ∀ x, Always step (rest (step x op w).1) (step x op w).2 post) :
    Always step (.call op rest) w post := by
  intro script
  cases script with
  | nil => exact here
  | cons x script => exact next x script

-- Sequencing: only a returned value reaches the continuation.
theorem always_bind {first : Prog I E A} {next : A → Prog I E B} {w : W}
    {post : Outcome E B → W → Prop}
    (head : Always step first w (fun outcome w' =>
      match outcome with
      | .returned value => Always step (next value) w' post
      | .raised error => post (.raised error) w'
      | .stopped => post .stopped w')) :
    Always step (first.bind next) w post := by
  induction first generalizing w with
  | done value => exact head []
  | raise error => exact fun script => head script
  | halt => exact fun script => head script
  | call op rest ih =>
    apply always_call
    · exact head []
    · exact fun x => ih _ (fun script => head (x :: script))

-- A `finally` block runs after a return and after an error, never after a stop.
theorem always_ensuring {body : Prog I E A} {last : Prog I E Unit} {w : W}
    {post : Outcome E A → W → Prop}
    (head : Always step body w (fun outcome w' =>
      match outcome with
      | .stopped => post .stopped w'
      | ended => Always step last w' (fun closing w'' =>
          match closing with
          | .returned _ => post ended w''
          | .raised error => post (.raised error) w''
          | .stopped => post .stopped w''))) :
    Always step (body.ensuring last) w post := by
  induction body generalizing w with
  | done value =>
    have closes : Always step last w (fun closing w'' =>
        match closing with
        | .returned _ => post (.returned value) w''
        | .raised error => post (.raised error) w''
        | .stopped => post .stopped w'') := head []
    apply always_bind
    refine closes.mono ?_
    intro closing w'' held
    cases closing with
    | returned _ => exact always_done held
    | raised error => exact held
    | stopped => exact held
  | raise error =>
    have closes : Always step last w (fun closing w'' =>
        match closing with
        | .returned _ => post (.raised error) w''
        | .raised error => post (.raised error) w''
        | .stopped => post .stopped w'') := head []
    apply always_bind
    refine closes.mono ?_
    intro closing w'' held
    cases closing with
    | returned _ => exact always_raise held
    | raised error => exact held
    | stopped => exact held
  | halt => exact fun script => head script
  | call op rest ih =>
    apply always_call
    · exact head []
    · exact fun x => ih _ (fun script => head (x :: script))

-- A handler runs after the errors it takes.
theorem always_catching {body : Prog I E A} {handler : E → Option (Prog I E A)} {w : W}
    {post : Outcome E A → W → Prop}
    (head : Always step body w (fun outcome w' =>
      match outcome with
      | .raised error => Always step ((handler error).getD (.raise error)) w' post
      | ended => post ended w')) :
    Always step (body.catching handler) w post := by
  induction body generalizing w with
  | done value => exact head
  | raise error => exact head []
  | halt => exact head
  | call op rest ih =>
    apply always_call
    · exact head []
    · exact fun x => ih _ (fun script => head (x :: script))

-- A run of a sequence has ended within its first part, or is a run of the second part from
-- where the first one returned.
theorem eval_bind (first : Prog I E A) (next : A → Prog I E B) (w : W) (script : List X) :
    (∃ value mid passed rest, script = passed ++ rest ∧
        first.eval step w passed = (.returned value, mid) ∧
        (first.bind next).eval step w script = (next value).eval step mid rest) ∨
      ((first.bind next).eval step w script).2 = (first.eval step w script).2 := by
  induction first generalizing w script with
  | done value => exact .inl ⟨value, w, [], script, rfl, rfl, rfl⟩
  | raise error => exact .inr rfl
  | halt => exact .inr rfl
  | call op rest ih =>
    cases script with
    | nil => exact .inr rfl
    | cons x script =>
      rcases ih (step x op w).1 (step x op w).2 script with
        ⟨value, mid, passed, others, rfl, returned, same⟩ | ended
      · exact .inl ⟨value, mid, x :: passed, others, rfl, returned, same⟩
      · exact .inr ended

-- A transitive relation kept by every permitted operation relates both ends of
-- each run, however the run ends.
theorem always_only {p : Prog I E A} {P : I.Op → Prop} (R : W → W → Prop) (w : W)
    (only : p.Only P) (refl : ∀ w, R w w) (trans : ∀ a b c, R a b → R b c → R a c)
    (keeps : ∀ x op w, P op → R w (step x op w).2) :
    Always step p w (fun _ w' => R w w') := by
  induction p generalizing w with
  | done value => exact always_done (refl w)
  | raise error => exact always_raise (refl w)
  | halt => exact always_halt (refl w)
  | call op rest ih =>
    apply always_call
    · exact refl w
    · intro x
      exact (ih _ _ (only.2 _)).mono (fun _ w' later => trans _ _ _ (keeps x op w only.1) later)

theorem always_raises {p : Prog I E A} {P : E → Prop} (raises : p.Raises P) (w : W) :
    Always step p w (fun outcome _ => ∀ error, outcome = .raised error → P error) := by
  induction p generalizing w with
  | done value => exact always_done (fun error same => by cases same)
  | raise error =>
    apply always_raise
    intro other same
    cases same
    exact raises
  | halt => exact always_halt (fun error same => by cases same)
  | call op rest ih =>
    apply always_call
    · exact fun error same => by cases same
    · exact fun x => ih _ (raises _) _

-- An environment that narrows each choice does nothing that the wider one does not.
theorem Always.narrow {p : Prog I E A} {w : W} {post : Outcome E A → W → Prop}
    (always : Always step p w post) (choose : I.Op → Y → X) :
    Always (fun y op w => step (choose op y) op w) p w post := by
  induction p generalizing w with
  | done value => exact fun _ => always []
  | raise error => exact fun _ => always []
  | halt => exact fun _ => always []
  | call op rest ih =>
    apply always_call
    · exact always []
    · exact fun y => ih _ (fun script => always (choose op y :: script))

-- Choices of another kind that stand for choices of the environment.
theorem eval_comap (choose : Y → X) (p : Prog I E A) (w : W) (script : List Y) :
    p.eval (fun y => step (choose y)) w script = p.eval step w (script.map choose) := by
  induction p generalizing w script with
  | done value => rfl
  | raise error => rfl
  | halt => rfl
  | call op rest ih =>
    cases script with
    | nil => rfl
    | cons y script => exact ih _ _ script

-- What holds whatever is chosen among some choices holds of every script of those.
theorem Always.eval_of_forall {p : Prog I E A} {w : W} {post : Outcome E A → W → Prop}
    {P : X → Prop} (always : Always (fun x : { x : X // P x } => step x.1) p w post)
    {script : List X} (each : ∀ x ∈ script, P x) :
    post (p.eval step w script).1 (p.eval step w script).2 := by
  have chosen := always (script.attachWith P each)
  rw [eval_comap Subtype.val, List.attachWith_map_subtype_val] at chosen
  exact chosen

theorem eval_liftLeft (left : Step I W X) (right : Step J W Y) (p : Prog I E A) (w : W)
    (script : List (X × Y)) :
    p.liftLeft.eval (left.sum right) w script = p.eval left w (script.map Prod.fst) := by
  induction p generalizing w script with
  | done value => rfl
  | raise error => rfl
  | halt => rfl
  | call op rest ih =>
    cases script with
    | nil => rfl
    | cons x script => exact ih _ _ script

theorem eval_liftRight (left : Step I W X) (right : Step J W Y) (p : Prog J E A) (w : W)
    (script : List (X × Y)) :
    p.liftRight.eval (left.sum right) w script = p.eval right w (script.map Prod.snd) := by
  induction p generalizing w script with
  | done value => rfl
  | raise error => rfl
  | halt => rfl
  | call op rest ih =>
    cases script with
    | nil => rfl
    | cons x script => exact ih _ _ script

theorem always_liftLeft {right : Step J W Y} {p : Prog I E A} {w : W}
    {post : Outcome E A → W → Prop} (always : Always step p w post) :
    Always (step.sum right) p.liftLeft w post := by
  intro script
  rw [eval_liftLeft]
  exact always (script.map Prod.fst)

theorem always_liftRight {left : Step J W Y} {p : Prog I E A} {w : W}
    {post : Outcome E A → W → Prop} (always : Always step p w post) :
    Always (left.sum step) p.liftRight w post := by
  intro script
  rw [eval_liftRight]
  exact always (script.map Prod.snd)

-- What holds of the part holds in the larger world, whose rest is as it was.
theorem always_focus {V : Type} {part : Step I V X} (get : W → V) (set : W → V → W)
    (getSet : ∀ w v, get (set w v) = v) (setGet : ∀ w, set w (get w) = w)
    (setSet : ∀ w v v', set (set w v) v' = set w v') {p : Prog I E A} {w : W}
    {post : Outcome E A → V → Prop} (always : Always part p (get w) post) :
    Always (part.focus get set) p w (fun outcome w' => ∃ v, w' = set w v ∧ post outcome v) := by
  induction p generalizing w with
  | done value => exact always_done ⟨get w, (setGet w).symm, always []⟩
  | raise error => exact always_raise ⟨get w, (setGet w).symm, always []⟩
  | halt => exact always_halt ⟨get w, (setGet w).symm, always []⟩
  | call op rest ih =>
    refine always_call ⟨get w, (setGet w).symm, always []⟩ ?_
    intro x
    have later : Always part (rest (part x op (get w)).1) (get (set w (part x op (get w)).2)) post := by
      rw [getSet]
      exact fun script => always (x :: script)
    refine (ih _ later).mono ?_
    rintro outcome w' ⟨v, rfl, held⟩
    exact ⟨v, setSet w _ v, held⟩

end Rules

theorem execute_bind {answer : (op : I.Op) → W → I.Reply op × W} {first : Prog I E A}
    {next : A → Prog I E B} {w w' : W} {value : A}
    (returns : first.execute answer w = (.returned value, w')) :
    (first.bind next).execute answer w = (next value).execute answer w' := by
  induction first generalizing w with
  | done result =>
    cases returns
    rfl
  | raise error => cases returns
  | halt => cases returns
  | call op rest ih => exact ih _ returns

theorem execute_bind_raised {answer : (op : I.Op) → W → I.Reply op × W} {first : Prog I E A}
    {next : A → Prog I E B} {w w' : W} {error : E}
    (raises : first.execute answer w = (.raised error, w')) :
    (first.bind next).execute answer w = (.raised error, w') := by
  induction first generalizing w with
  | done result => cases raises
  | raise failure =>
    cases raises
    rfl
  | halt => cases raises
  | call op rest ih => exact ih _ raises

theorem execute_bind_stopped {answer : (op : I.Op) → W → I.Reply op × W} {first : Prog I E A}
    {next : A → Prog I E B} {w : W} (stops : (first.execute answer w).1 = .stopped) :
    ((first.bind next).execute answer w).1 = .stopped := by
  induction first generalizing w with
  | done result => cases stops
  | raise failure => cases stops
  | halt => rfl
  | call op rest ih => exact ih _ stops

theorem execute_catching {answer : (op : I.Op) → W → I.Reply op × W} {body : Prog I E A}
    (handler : E → Option (Prog I E A)) {w w' : W} {value : A}
    (returns : body.execute answer w = (.returned value, w')) :
    (body.catching handler).execute answer w = (.returned value, w') := by
  induction body generalizing w with
  | done result => exact returns
  | raise failure => cases returns
  | halt => cases returns
  | call op rest ih => exact ih _ returns

theorem execute_catching_raised {answer : (op : I.Op) → W → I.Reply op × W} {body : Prog I E A}
    (handler : E → Option (Prog I E A)) {w w' : W} {error : E}
    (raises : body.execute answer w = (.raised error, w')) :
    (body.catching handler).execute answer w =
      ((handler error).getD (.raise error)).execute answer w' := by
  induction body generalizing w with
  | done result => cases raises
  | raise failure =>
    cases raises
    rfl
  | halt => cases raises
  | call op rest ih => exact ih _ raises

theorem execute_liftLeft {answer : (op : (I.sum J).Op) → W → (I.sum J).Reply op × W}
    (p : Prog I E A) (w : W) :
    (p.liftLeft : Prog (I.sum J) E A).execute answer w = p.execute (fun op => answer (.inl op)) w := by
  induction p generalizing w with
  | done value => rfl
  | raise error => rfl
  | halt => rfl
  | call op rest ih => exact ih _ _

-- Making the same choice every time is one way to make every choice.
theorem Always.execute {step : Step I W X} {p : Prog I E A} {w : W}
    {post : Outcome E A → W → Prop} (always : Always step p w post) (x : X) :
    post (p.execute (step x) w).1 (p.execute (step x) w).2 := by
  induction p generalizing w with
  | done value => exact always []
  | raise error => exact always []
  | halt => exact always []
  | call op rest ih => exact ih _ (fun script => always (x :: script))

/-! ## Invariants of every ending

An operation that fails leaves a program anywhere, so a specification has two
parts: what holds however the program ends, and what a return adds. -/

def Upholds (step : Step I W X) (p : Prog I E A) (w : W) (inv : W → Prop)
    (post : A → W → Prop) : Prop :=
  Always step p w (fun outcome w' => inv w' ∧ ∀ value, outcome = .returned value → post value w')

section Upholds

variable {step : Step I W X} {inv weaker : W → Prop}

theorem Upholds.mono {p : Prog I E A} {w : W} {post wider : A → W → Prop}
    (upholds : Upholds step p w inv post) (ends : ∀ w', inv w' → weaker w')
    (returns : ∀ value w', inv w' → post value w' → wider value w') :
    Upholds step p w weaker wider :=
  Always.mono upholds fun _ w' ⟨held, returned⟩ =>
    ⟨ends w' held, fun value same => returns value w' held (returned value same)⟩

theorem upholds_done {value : A} {w : W} {post : A → W → Prop} (held : inv w)
    (here : post value w) : Upholds step (.done value : Prog I E A) w inv post :=
  always_done ⟨held, fun _ same => by cases same; exact here⟩

theorem upholds_raise {error : E} {w : W} {post : A → W → Prop} (held : inv w) :
    Upholds step (.raise error) w inv post :=
  always_raise ⟨held, fun _ same => nomatch same⟩

theorem upholds_call {op : I.Op} {rest : I.Reply op → Prog I E A} {w : W} {post : A → W → Prop}
    (held : inv w)
    (next : ∀ x, Upholds step (rest (step x op w).1) (step x op w).2 inv post) :
    Upholds step (.call op rest) w inv post :=
  always_call ⟨held, fun _ same => nomatch same⟩ next

theorem upholds_bind {first : Prog I E A} {next : A → Prog I E B} {w : W}
    {m : A → W → Prop} {post : B → W → Prop} (head : Upholds step first w inv m)
    (tail : ∀ value w', inv w' → m value w' → Upholds step (next value) w' inv post) :
    Upholds step (first.bind next) w inv post := by
  refine always_bind (Always.mono head ?_)
  rintro outcome w' ⟨held, returned⟩
  cases outcome with
  | returned value => exact tail value w' held (returned value rfl)
  | raised error => exact ⟨held, fun _ same => nomatch same⟩
  | stopped => exact ⟨held, fun _ same => nomatch same⟩

theorem upholds_ensuring {body : Prog I E A} {last : Prog I E Unit} {w : W}
    {post : W → Prop} (head : Upholds step body w inv (fun _ _ => True))
    (ends : ∀ w', inv w' → weaker w')
    (closes : ∀ w', inv w' → Upholds step last w' weaker (fun _ => post)) :
    Upholds step (body.ensuring last) w weaker (fun _ => post) := by
  refine always_ensuring (Always.mono head ?_)
  rintro outcome w' ⟨held, _⟩
  cases outcome with
  | stopped => exact ⟨ends w' held, fun _ same => nomatch same⟩
  | returned value =>
    refine Always.mono (closes w' held) ?_
    rintro closing w'' ⟨kept, returned⟩
    cases closing with
    | returned _ => exact ⟨kept, fun _ _ => returned () rfl⟩
    | raised error => exact ⟨kept, fun _ same => nomatch same⟩
    | stopped => exact ⟨kept, fun _ same => nomatch same⟩
  | raised error =>
    refine Always.mono (closes w' held) ?_
    rintro closing w'' ⟨kept, _⟩
    cases closing with
    | returned _ => exact ⟨kept, fun _ same => nomatch same⟩
    | raised error => exact ⟨kept, fun _ same => nomatch same⟩
    | stopped => exact ⟨kept, fun _ same => nomatch same⟩

theorem upholds_only {p : Prog I E A} {P : I.Op → Prop} {w : W} (only : p.Only P) (held : inv w)
    (keeps : ∀ x op w, P op → inv w → inv (step x op w).2) :
    Upholds step p w inv (fun _ _ => True) := by
  refine (always_only (fun before after => inv before → inv after) w only (fun _ here => here)
    (fun _ _ _ first second here => second (first here)) keeps).mono ?_
  exact fun _ w' kept => ⟨kept held, fun _ _ => trivial⟩

end Upholds

/-- What a return says, and what every other ending says. -/
def Ends (other : W → Prop) (post : A → W → Prop) : Outcome E A → W → Prop
  | .returned value, w => post value w
  | _, w => other w

theorem ends_bind {step : Step I W X} {other : W → Prop} {first : Prog I E A}
    {next : A → Prog I E B} {w : W} {middle : A → W → Prop} {post : B → W → Prop}
    (head : Always step first w (Ends other middle))
    (tail : ∀ value w', middle value w' → Always step (next value) w' (Ends other post)) :
    Always step (first.bind next) w (Ends other post) := by
  refine always_bind (Always.mono head ?_)
  intro outcome w' ended
  cases outcome with
  | returned value => exact tail value w' ended
  | raised error => exact ended
  | stopped => exact ended

theorem ends_ensuring {step : Step I W X} {other : W → Prop} {body : Prog I E A}
    {last : Prog I E Unit} {w : W} {middle post : A → W → Prop}
    (head : Always step body w (Ends other middle))
    (keeps : ∀ w', other w' → Always step last w' (fun _ w'' => other w''))
    (returns : ∀ value w', middle value w' →
      Always step last w' (Ends other fun _ w'' => post value w'')) :
    Always step (body.ensuring last) w (Ends other post) := by
  refine always_ensuring (Always.mono head ?_)
  intro outcome w' ended
  cases outcome with
  | stopped => exact ended
  | returned value =>
    refine Always.mono (returns value w' ended) ?_
    intro closing w'' held
    cases closing with
    | returned _ => exact held
    | raised error => exact held
    | stopped => exact held
  | raised error =>
    refine Always.mono (keeps w' ended) ?_
    intro closing w'' held
    cases closing with
    | returned _ => exact held
    | raised error => exact held
    | stopped => exact held

theorem ends_catching {step : Step I W X} {other : W → Prop} {body : Prog I E A}
    {handler : E → Option (Prog I E A)} {w : W} {post : A → W → Prop}
    (head : Always step body w (Ends other post))
    (handles : ∀ error w', other w' → ∀ p ∈ handler error, Always step p w' (Ends other post)) :
    Always step (body.catching handler) w (Ends other post) := by
  refine always_catching (Always.mono head ?_)
  intro outcome w' ended
  cases outcome with
  | returned value => exact ended
  | stopped => exact ended
  | raised error =>
    change Always step ((handler error).getD (.raise error)) w' (Ends other post)
    cases handled : handler error with
    | none => exact always_raise ended
    | some p => exact handles error w' ended p handled

theorem ends_any {step : Step I W X} {p : Prog I E A} {w : W} :
    Always step p w (Ends (fun _ => True) fun _ _ => True) := by
  intro script
  cases (p.eval step w script).1 <;> trivial

/-- What a return says and what an error says; a run that stops says nothing. -/
def Concludes (returns : A → W → Prop) (raises : E → W → Prop) : Outcome E A → W → Prop
  | .returned value, w => returns value w
  | .raised error, w => raises error w
  | .stopped, _ => True

theorem concludes_bind {step : Step I W X} {first : Prog I E A} {next : A → Prog I E B} {w : W}
    {middle : A → W → Prop} {raises : E → W → Prop} {returns : B → W → Prop}
    (head : Always step first w (Concludes middle raises))
    (tail : ∀ value w', middle value w' → Always step (next value) w' (Concludes returns raises)) :
    Always step (first.bind next) w (Concludes returns raises) := by
  refine always_bind (Always.mono head ?_)
  intro outcome w' ended
  cases outcome with
  | returned value => exact tail value w' ended
  | raised error => exact ended
  | stopped => trivial

-- The errors of a program are those it names, wherever it raises them.
theorem concludes_raises {step : Step I W X} {p : Prog I E A} {P : E → Prop} {w : W}
    {raises : E → W → Prop} (named : p.Raises P) (every : ∀ error w', P error → raises error w') :
    Always step p w (Concludes (fun _ _ => True) raises) := by
  refine Always.mono (always_raises named w) ?_
  intro outcome w' raised
  cases outcome with
  | returned value => trivial
  | raised error => exact every error w' (raised error rfl)
  | stopped => trivial

/-- Whatever the environment chooses, a run comes to the program `q` in the world `last`. -/
inductive Leads (step : Step I W X) (q : Prog I E A) (last : W) : Prog I E A → W → Prop
  | here : Leads step q last q last
  | call {op : I.Op} {rest : I.Reply op → Prog I E A} {w : W}
      (answered : ∀ x, Leads step q last (rest (step x op w).1) (step x op w).2) :
      Leads step q last (.call op rest) w

section Leads

variable {step : Step I W X} {p q : Prog I E A} {w last : W}

-- A run of the program that is led is a run of the one it is led to, unless it stops before.
theorem Leads.eval (leads : Leads step q last p w) (script : List X) :
    (p.eval step w script).1 = .stopped ∨
      ∃ rest, p.eval step w script = q.eval step last rest := by
  induction leads generalizing script with
  | here => exact .inr ⟨script, rfl⟩
  | call answered ih =>
    cases script with
    | nil => exact .inl rfl
    | cons x script => exact ih x script

theorem Leads.always (leads : Leads step q last p w) {post : Outcome E A → W → Prop}
    (stops : ∀ w', post .stopped w') (rest : Always step q last post) : Always step p w post := by
  induction leads with
  | here => exact rest
  | call answered ih => exact always_call (stops _) ih

theorem Leads.exists_eval (leads : Leads step q last p w) (x : X) (rest : List X) :
    ∃ script, p.eval step w script = q.eval step last rest := by
  induction leads with
  | here => exact ⟨rest, rfl⟩
  | call answered ih =>
    obtain ⟨script, same⟩ := ih x
    exact ⟨x :: script, same⟩

theorem Leads.bind {next : A → Prog I E B} {q : Prog I E B} {value : A} {final : W}
    (head : Leads step (.done value) last p w) (tail : Leads step q final (next value) last) :
    Leads step q final (p.bind next) w := by
  induction head with
  | here => exact tail
  | call answered ih => exact .call ih

theorem Leads.bind_raise {next : A → Prog I E B} {error : E}
    (leads : Leads step (.raise error) last p w) :
    Leads step (.raise error) last (p.bind next) w := by
  induction leads with
  | here => exact .here
  | call answered ih => exact .call ih

theorem Leads.liftLeft {right : Step J W Y} (leads : Leads step q last p w) :
    Leads (step.sum right) q.liftLeft last p.liftLeft w := by
  induction leads with
  | here => exact .here
  | call answered ih => exact .call (fun x => ih x.1)

end Leads

/-- A relation of start, ending and final world holds of every run of a sequence,
a script a run, each run starting where the one before it ended. -/
def EachRun (step : Step I W X) (p : Prog I E A) (P : W → Outcome E A → W → Prop) (w : W) :
    List (List X) → Prop
  | [] => True
  | script :: scripts =>
      let ran := p.eval step w script
      P w ran.1 ran.2 ∧ EachRun step p P ran.2 scripts

-- When every run meets a condition under which it keeps an invariant and does what
-- it should, every run does what it should.
theorem eachRun_of_invariant {step : Step I W X} {p : Prog I E A} (inv : W → Prop)
    {meets ensures : W → Outcome E A → W → Prop}
    (one : ∀ w, inv w → Always step p w
      (fun outcome w' => meets w outcome w' → inv w' ∧ ensures w outcome w'))
    {w : W} (start : inv w) {scripts : List (List X)} (each : EachRun step p meets w scripts) :
    EachRun step p ensures w scripts := by
  induction scripts generalizing w with
  | nil => trivial
  | cons script scripts ih =>
    obtain ⟨met, later⟩ := each
    obtain ⟨kept, ensured⟩ := one w start script met
    exact ⟨ensured, ih kept later⟩

end Effects
