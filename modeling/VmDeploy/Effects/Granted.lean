import VmDeploy.Effects.Program

/-! Programs that return wherever the environment grants their requests. -/

set_option autoImplicit false

namespace Effects

variable {I J : Signature} {E A B W X Y : Type}

/-- Which replies grant what was asked for. -/
abbrev Grants (I : Signature) : Type :=
  (op : I.Op) → I.Reply op → Bool

def Grants.sum (left : Grants I) (right : Grants J) : Grants (I.sum J)
  | .inl op, reply => left op reply
  | .inr op, reply => right op reply

/-- Every request of the run is granted, and the run is not stopped. -/
def Prog.granted (step : Step I W X) (grants : Grants I) : Prog I E A → W → List X → Bool
  | .done _, _, _ => true
  | .raise _, _, _ => true
  | .halt, _, _ => false
  | .call _ _, _, [] => false
  | .call op rest, w, x :: script =>
      let answer := step x op w
      grants op answer.1 && (rest answer.1).granted step grants answer.2 script

/-- Where the run comes to a return, the condition holds of the world and the choices left. -/
def Prog.thereafter (step : Step I W X) (left : A → W → List X → Bool) :
    Prog I E A → W → List X → Bool
  | .done value, w, script => left value w script
  | .raise _, _, _ => true
  | .halt, _, _ => true
  | .call _ _, _, [] => true
  | .call op rest, w, x :: script =>
      let answer := step x op w
      (rest answer.1).thereafter step left answer.2 script

/-- A run returns if all that it asks for is granted, and every return is as it should be. -/
def Delivers (step : Step I W X) (grants : Grants I) (p : Prog I E A) (w : W)
    (post : A → W → Prop) : Prop :=
  ∀ script, p.granted step grants w script = true →
    ∃ value, (p.eval step w script).1 = .returned value ∧ post value (p.eval step w script).2

section Rules

variable {step : Step I W X} {grants : Grants I}

theorem delivers_done {value : A} {w : W} {post : A → W → Prop} (here : post value w) :
    Delivers step grants (.done value : Prog I E A) w post :=
  fun _ _ => ⟨value, rfl, here⟩

theorem delivers_call {op : I.Op} {rest : I.Reply op → Prog I E A} {w : W} {post : A → W → Prop}
    (next : ∀ x, grants op (step x op w).1 = true →
      Delivers step grants (rest (step x op w).1) (step x op w).2 post) :
    Delivers step grants (.call op rest) w post := by
  intro script granted
  cases script with
  | nil => cases granted
  | cons x script =>
    obtain ⟨here, later⟩ := Bool.and_eq_true_iff.mp granted
    exact next x here script later

theorem delivers_bind {first : Prog I E A} {next : A → Prog I E B} {w : W}
    {middle : A → W → Prop} {post : B → W → Prop} (head : Delivers step grants first w middle)
    (tail : ∀ value w', middle value w' → Delivers step grants (next value) w' post) :
    Delivers step grants (first.bind next) w post := by
  induction first generalizing w with
  | done value =>
    obtain ⟨_, same, held⟩ := head [] rfl
    cases same
    exact tail value w held
  | raise error =>
    obtain ⟨_, same, -⟩ := head [] rfl
    cases same
  | halt =>
    intro script granted
    cases granted
  | call op rest ih =>
    refine delivers_call fun x here => ih _ fun script later => ?_
    exact head (x :: script) (Bool.and_eq_true_iff.mpr ⟨here, later⟩)

theorem delivers_ensuring {body : Prog I E A} {last : Prog I E Unit} {w : W}
    {middle post : A → W → Prop} (head : Delivers step grants body w middle)
    (closes : ∀ value w', middle value w' →
      Delivers step grants last w' fun _ w'' => post value w'') :
    Delivers step grants (body.ensuring last) w post := by
  induction body generalizing w with
  | done value =>
    obtain ⟨_, same, held⟩ := head [] rfl
    cases same
    exact delivers_bind (closes value w held) fun _ _ here => delivers_done here
  | raise error =>
    obtain ⟨_, same, -⟩ := head [] rfl
    cases same
  | halt =>
    intro script granted
    cases granted
  | call op rest ih =>
    refine delivers_call fun x here => ih _ fun script later => ?_
    exact head (x :: script) (Bool.and_eq_true_iff.mpr ⟨here, later⟩)

-- What every return says is said of the return that comes.
theorem Delivers.ends {p : Prog I E A} {w : W} {post more : A → W → Prop} {other : W → Prop}
    (delivers : Delivers step grants p w post) (always : Always step p w (Ends other more)) :
    Delivers step grants p w more := by
  intro script granted
  obtain ⟨value, same, -⟩ := delivers script granted
  have ended := always script
  rw [same] at ended
  exact ⟨value, same, ended⟩

theorem granted_liftLeft (left : Step I W X) (right : Step J W Y) (others : Grants J)
    (p : Prog I E A) (w : W) (script : List (X × Y)) :
    p.liftLeft.granted (left.sum right) (grants.sum others) w script =
      p.granted left grants w (script.map Prod.fst) := by
  induction p generalizing w script with
  | done value => rfl
  | raise error => rfl
  | halt => rfl
  | call op rest ih =>
    cases script with
    | nil => rfl
    | cons x script => exact congrArg (grants op _ && ·) (ih _ _ script)

theorem granted_liftRight (left : Step I W X) (right : Step J W Y) (others : Grants J)
    (p : Prog J E A) (w : W) (script : List (X × Y)) :
    p.liftRight.granted (left.sum right) (grants.sum others) w script =
      p.granted right others w (script.map Prod.snd) := by
  induction p generalizing w script with
  | done value => rfl
  | raise error => rfl
  | halt => rfl
  | call op rest ih =>
    cases script with
    | nil => rfl
    | cons x script => exact congrArg (others op _ && ·) (ih _ _ script)

theorem delivers_liftLeft {right : Step J W Y} {others : Grants J} {p : Prog I E A} {w : W}
    {post : A → W → Prop} (delivers : Delivers step grants p w post) :
    Delivers (step.sum right) (grants.sum others) p.liftLeft w post := by
  intro script granted
  rw [granted_liftLeft] at granted
  rw [eval_liftLeft]
  exact delivers _ granted

theorem delivers_liftRight {left : Step J W Y} {others : Grants J} {p : Prog I E A} {w : W}
    {post : A → W → Prop} (delivers : Delivers step grants p w post) :
    Delivers (left.sum step) (others.sum grants) p.liftRight w post := by
  intro script granted
  rw [granted_liftRight] at granted
  rw [eval_liftRight]
  exact delivers _ granted

theorem delivers_focus {V : Type} {part : Step I V X} (get : W → V) (set : W → V → W)
    (getSet : ∀ w v, get (set w v) = v) {p : Prog I E A} {w : W} {post : A → V → Prop}
    (delivers : Delivers part grants p (get w) post) :
    Delivers (part.focus get set) grants p w fun value w' => post value (get w') := by
  induction p generalizing w with
  | done value =>
    obtain ⟨_, same, held⟩ := delivers [] rfl
    cases same
    exact delivers_done held
  | raise error =>
    obtain ⟨_, same, -⟩ := delivers [] rfl
    cases same
  | halt =>
    intro script granted
    cases granted
  | call op rest ih =>
    refine delivers_call fun x here => ih _ fun script later => ?_
    rw [Step.focus, getSet] at later ⊢
    exact delivers (x :: script) (Bool.and_eq_true_iff.mpr ⟨here, later⟩)

-- A run of a sequence ends as its first part does, or the condition holds where its second begins.
theorem eval_bind_thereafter {left : A → W → List X → Bool} (first : Prog I E A)
    (next : A → Prog I E B) (w : W) (script : List X)
    (meets : first.thereafter step left w script = true) :
    (∃ value mid passed rest, first.eval step w passed = (.returned value, mid) ∧
        left value mid rest = true ∧
        (first.bind next).eval step w script = (next value).eval step mid rest) ∨
      ((first.bind next).eval step w script).2 = (first.eval step w script).2 := by
  induction first generalizing w script with
  | done value => exact .inl ⟨value, w, [], script, rfl, meets, rfl⟩
  | raise error => exact .inr rfl
  | halt => exact .inr rfl
  | call op rest ih =>
    cases script with
    | nil => exact .inr rfl
    | cons x script =>
      rcases ih (step x op w).1 (step x op w).2 script meets with
        ⟨value, mid, passed, others, returned, held, same⟩ | ended
      · exact .inl ⟨value, mid, x :: passed, others, returned, held, same⟩
      · exact .inr ended

end Rules

end Effects
