import VmDeploy.Effects.Program

/-! Programs under one answer to every operation, and how their parts end. -/

set_option autoImplicit false

namespace Effects

variable {I J : Signature} {E A B : Type}

namespace Outcome

def andThen (next : A → Outcome E B) : Outcome E A → Outcome E B
  | .returned value => next value
  | .raised error => .raised error
  | .stopped => .stopped

def handled (handler : E → Option (Outcome E A)) : Outcome E A → Outcome E A
  | .raised error => (handler error).getD (.raised error)
  | ended => ended

end Outcome

namespace Prog

/-- How a program ends that meets these answers. -/
def outcome (answers : (op : I.Op) → I.Reply op) : Prog I E A → Outcome E A
  | .done value => .returned value
  | .raise error => .raised error
  | .halt => .stopped
  | .call op rest => (rest (answers op)).outcome answers

variable (answers : (op : I.Op) → I.Reply op)

@[simp] theorem outcome_done (value : A) :
    (.done value : Prog I E A).outcome answers = .returned value := rfl

@[simp] theorem outcome_raise (error : E) :
    (.raise error : Prog I E A).outcome answers = .raised error := rfl

@[simp] theorem outcome_perform (op : I.Op) :
    (perform op : Prog I E (I.Reply op)).outcome answers = .returned (answers op) := rfl

@[simp] theorem outcome_bind (first : Prog I E A) (next : A → Prog I E B) :
    (first.bind next).outcome answers =
      (first.outcome answers).andThen fun value => (next value).outcome answers := by
  induction first with
  | done value => rfl
  | raise error => rfl
  | halt => rfl
  | call op rest ih => exact ih (answers op)

@[simp] theorem outcome_catching (body : Prog I E A) (handler : E → Option (Prog I E A)) :
    (body.catching handler).outcome answers =
      (body.outcome answers).handled fun error => (handler error).map (outcome answers) := by
  induction body with
  | done value => rfl
  | raise error =>
    rw [catching, outcome_raise, Outcome.handled]
    cases handler error <;> rfl
  | halt => rfl
  | call op rest ih => exact ih (answers op)

-- Finer requests that come to one reply stand for the request that has it.
theorem outcome_refine {how : (op : I.Op) → Prog J E (I.Reply op)} {finer : (op : J.Op) → J.Reply op}
    {answers : (op : I.Op) → I.Reply op}
    (comes : ∀ op, (how op).outcome finer = .returned (answers op)) (p : Prog I E A) :
    (p.refine how).outcome finer = p.outcome answers := by
  induction p with
  | done value => rfl
  | raise error => rfl
  | halt => rfl
  | call op rest ih =>
    rw [refine, outcome_bind, comes]
    exact ih (answers op)

end Prog

end Effects
