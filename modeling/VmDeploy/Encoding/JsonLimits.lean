import VmDeploy.Encoding.Json

/-! Which limit a scan meets first, on texts of any kind.

A scanner that builds values as it goes stops where a bracket opens too deep a nesting, and
where the literal of too long an integer ends, whatever comes later in the text. -/

set_option autoImplicit false

namespace Json

inductive Excess where
  | depth
  | digits
  deriving DecidableEq, Repr

/-- The longest number in front of a literal that goes on. -/
def matched (text : List Char) : NumberPhase → List Char
  | .minus => []
  | .dot | .exponent => text.dropLast
  | .sign => text.dropLast.dropLast
  | .zero | .digits | .fraction | .power => text

/-- An integer is converted once no later character belongs to its literal. -/
def convertible (limits : Limits) (next : Option Char) : Mode → Bool
  | .number text phase =>
      (next.bind phase.next).isSome || within limits.integerDigits (integerDigits (matched text phase))
  | _ => true

/-- What a reader exceeds before it takes the next character. -/
def excess (limits : Limits) (reader : Reader) (next : Option Char) : Option Excess :=
  if !within limits.depth reader.stack.length then some .depth
  else if !convertible limits next reader.mode then some .digits
  else none

def firstExcess (limits : Limits) (reader : Reader) : List Char → Option Excess
  | [] => excess limits reader none
  | c :: rest =>
      (excess limits reader (some c)).or ((step reader c).bind fun next => firstExcess limits next rest)

section Held

variable {limits : Limits}

def frameHeld (limits : Limits) (depth : Nat) : Frame → Bool
  | .elements before => allAdmitted limits depth before
  | .members before | .member before _ => membersAdmitted limits depth before

/-- Every value in front of the cursor is within the limits, and so is the nesting. -/
def framesHeld (limits : Limits) : List Frame → Bool
  | [] => true
  | frame :: rest =>
      within limits.depth (rest.length + 1) && frameHeld limits (rest.length + 1) frame &&
        framesHeld limits rest

def Mode.ended : Mode → Option Value
  | .done result => some result
  | _ => none

def Value.isLiteral : Value → Bool
  | .null | .bool _ | .constant _ => true
  | _ => false

def Reader.sound (reader : Reader) : Bool :=
  match reader.mode with
  | .done _ => reader.stack.isEmpty
  | .word _ literal => literal.isLiteral
  | _ => true

def held (limits : Limits) (reader : Reader) : Bool :=
  framesHeld limits reader.stack && reader.mode.ended.all (·.admitted limits 0)

theorem held_waiting {reader : Reader} (waits : reader.mode.ended = none) :
    held limits reader = framesHeld limits reader.stack := by
  rw [held, waits, Option.all_none, Bool.and_true]

theorem allAdmitted_append (depth : Nat) (before after : List Value) :
    allAdmitted limits depth (before ++ after) =
      (allAdmitted limits depth before && allAdmitted limits depth after) := by
  induction before with
  | nil => rfl
  | cons value rest ih => simp [allAdmitted, ih, Bool.and_assoc]

theorem membersAdmitted_append (depth : Nat) (before after : List (Content × Value)) :
    membersAdmitted limits depth (before ++ after) =
      (membersAdmitted limits depth before && membersAdmitted limits depth after) := by
  induction before with
  | nil => rfl
  | cons member rest ih => simp [membersAdmitted, ih, Bool.and_assoc]

theorem framesHeld_depth {stack : List Frame} (holds : framesHeld limits stack = true) :
    within limits.depth stack.length = true := by
  cases stack with
  | nil =>
    cases known : limits.depth with
    | none => rfl
    | some bound => simp [within]
  | cons frame rest =>
    simp only [framesHeld, Bool.and_eq_true] at holds
    exact holds.1.1

-- A delivered value is held with those before it.
theorem held_deliver {value : Value} {stack : List Frame} {reader : Reader}
    (delivers : deliver value stack = some reader) :
    held limits reader = (framesHeld limits stack && value.admitted limits stack.length) := by
  unfold deliver at delivers
  split at delivers <;> cases delivers
  · rfl
  · rw [held_waiting rfl]
    simp only [framesHeld, frameHeld, allAdmitted_append, allAdmitted, Bool.and_true,
      List.length_cons]
    grind
  · rw [held_waiting rfl]
    simp only [framesHeld, frameHeld, membersAdmitted_append, membersAdmitted, Bool.and_true,
      List.length_cons]
    grind

theorem held_closeArray {stack : List Frame} {reader : Reader}
    (closes : closeArray stack = some reader) : held limits reader = framesHeld limits stack := by
  unfold closeArray at closes
  split at closes
  · next before rest =>
    rw [held_deliver closes]
    simp only [Value.admitted, framesHeld, frameHeld]
    grind
  · cases closes

theorem held_closeObject {stack : List Frame} {reader : Reader}
    (closes : closeObject stack = some reader) : held limits reader = framesHeld limits stack := by
  unfold closeObject at closes
  split at closes
  · next before rest =>
    rw [held_deliver closes]
    simp only [Value.admitted, framesHeld, frameHeld]
    grind
  · cases closes

theorem held_depth (reader : Reader) :
    (held limits reader && within limits.depth reader.stack.length) = held limits reader := by
  by_cases holds : framesHeld limits reader.stack = true
  · rw [framesHeld_depth holds, Bool.and_true]
  · rw [Bool.not_eq_true] at holds
    simp [held, holds]

theorem beginValue_cases (limits : Limits) {c : Char} {stack : List Frame} {reader : Reader}
    (begins : beginValue c stack = some reader) :
    reader.mode.ended = none ∧ reader.sound = true ∧
      (reader.stack = stack ∨ ∃ frame, reader.stack = frame :: stack ∧
        ∀ depth, frameHeld limits depth frame = true) := by
  have stays : ∀ mode : Mode, mode.ended = none → Reader.sound ⟨stack, mode⟩ = true →
      some ⟨stack, mode⟩ = some reader → reader.mode.ended = none ∧ reader.sound = true ∧
        (reader.stack = stack ∨ ∃ frame, reader.stack = frame :: stack ∧
          ∀ depth, frameHeld limits depth frame = true) := by
    rintro mode waits sound same
    cases same
    exact ⟨waits, sound, .inl rfl⟩
  unfold beginValue at begins
  rcases ite_eq_iff.mp begins with ⟨-, begins⟩ | ⟨-, begins⟩
  · exact stays _ rfl rfl begins
  rcases ite_eq_iff.mp begins with ⟨-, begins⟩ | ⟨-, begins⟩
  · cases begins
    exact ⟨rfl, rfl, .inr ⟨_, rfl, fun _ => rfl⟩⟩
  rcases ite_eq_iff.mp begins with ⟨-, begins⟩ | ⟨-, begins⟩
  · cases begins
    exact ⟨rfl, rfl, .inr ⟨_, rfl, fun _ => rfl⟩⟩
  repeat
    rcases ite_eq_iff.mp begins with ⟨-, begins⟩ | ⟨-, begins⟩
    · exact stays _ rfl rfl begins
  cases begins

theorem held_beginValue {c : Char} {stack : List Frame} {reader : Reader}
    (begins : beginValue c stack = some reader) :
    held limits reader = (framesHeld limits stack && within limits.depth reader.stack.length) := by
  obtain ⟨waits, -, same | ⟨frame, opened, empty⟩⟩ := beginValue_cases limits begins
  · rw [← held_depth, held_waiting waits, same]
  · rw [held_waiting waits, opened, framesHeld, empty, Bool.and_true, List.length_cons, Bool.and_comm]

theorem held_afterValue {c : Char} {stack : List Frame} {reader : Reader}
    (passes : afterValue c stack = some reader) : held limits reader = framesHeld limits stack := by
  unfold afterValue at passes
  split at passes
  · split at passes
    · cases passes
      exact held_waiting rfl
    · split at passes
      · exact held_closeArray passes
      · cases passes
  · split at passes
    · cases passes
      exact held_waiting rfl
    · split at passes
      · exact held_closeObject passes
      · cases passes
  · cases passes

theorem held_pass {c : Char} {reader next : Reader} (passes : pass c reader = some next) :
    held limits next = held limits reader := by
  unfold pass at passes
  split at passes
  · cases passes
    rfl
  · split at passes
    · next after =>
      rw [held_afterValue passes, held_waiting]
      rw [after]
      rfl
    · cases passes

theorem held_deliverText {content : Content} {stack : List Frame} {reader : Reader}
    (delivers : deliverText content stack = some reader) :
    held limits reader = framesHeld limits stack := by
  unfold deliverText at delivers
  split at delivers
  · cases delivers
    rw [held_waiting rfl]
    rfl
  · rw [held_deliver delivers]
    exact Bool.and_true _

-- One character: the new reader holds what the old one held, an integer that ended
-- in front of it and the nesting that it opened.
theorem held_step (constants : limits.constants = true) {reader next : Reader} {c : Char}
    (sound : reader.sound = true) (reads : step reader c = some next) :
    held limits next = (held limits reader && convertible limits (some c) reader.mode &&
      within limits.depth next.stack.length) := by
  -- nothing is opened but at the start of a value
  have closed : held limits next = (held limits reader && convertible limits (some c) reader.mode) →
      held limits next = (held limits reader && convertible limits (some c) reader.mode &&
        within limits.depth next.stack.length) := by
    intro same
    rw [← same, held_depth]
  obtain ⟨stack, mode⟩ := reader
  have here : mode.ended = none → held limits ⟨stack, mode⟩ = framesHeld limits stack :=
    fun waits => held_waiting waits
  unfold step at reads
  cases mode with
  | value closes =>
    dsimp only at reads
    split at reads
    · cases reads
      exact closed (Bool.and_true _).symm
    · split at reads
      · apply closed
        rw [held_closeArray reads, here rfl]
        exact (Bool.and_true _).symm
      · rw [held_beginValue reads, here rfl]
        exact congrArg (· && _) (Bool.and_true _).symm
  | key closes =>
    apply closed
    rw [here rfl]
    dsimp only at reads
    split at reads
    · cases reads
      exact (here rfl).trans (Bool.and_true _).symm
    · split at reads
      · rw [held_closeObject reads]
        exact (Bool.and_true _).symm
      · rw [Option.ite_none_right_eq_some, Option.some.injEq] at reads
        rw [← reads.2]
        rfl
  | colon =>
    apply closed
    rw [here rfl]
    dsimp only at reads
    split at reads
    · cases reads
      exact (here rfl).trans (Bool.and_true _).symm
    · rw [Option.ite_none_right_eq_some, Option.some.injEq] at reads
      rw [← reads.2]
      rfl
  | after | done =>
    apply closed
    rw [held_pass reads]
    exact (Bool.and_true _).symm
  | text content =>
    apply closed
    rw [here rfl]
    dsimp only at reads
    split at reads
    · rw [held_deliverText reads]
      exact (Bool.and_true _).symm
    · split at reads
      · cases reads
        rfl
      · rw [Option.ite_none_left_eq_some, Option.some.injEq] at reads
        rw [← reads.2]
        rfl
  | escape content =>
    apply closed
    rw [here rfl]
    dsimp only at reads
    split at reads
    · cases reads
      rfl
    · obtain ⟨char, -, rfl⟩ := Option.map_eq_some_iff.mp reads
      rfl
  | unicode content digits unit =>
    apply closed
    rw [here rfl]
    obtain ⟨digit, -, same⟩ := Option.map_eq_some_iff.mp reads
    split at same
    · rw [← same]
      rfl
    · rw [← same]
      rfl
  | number text phase =>
    apply closed
    rw [here rfl]
    dsimp only at reads
    cases goes : phase.next c with
    | some more =>
      rw [goes] at reads
      cases reads
      rw [held_waiting rfl]
      simp [convertible, goes]
    | none =>
      rw [goes] at reads
      dsimp only at reads
      split at reads
      · next complete =>
        -- the literal ends in front of the character
        obtain ⟨delivered, delivers, passes⟩ := Option.bind_eq_some_iff.mp reads
        rw [held_pass passes, held_deliver delivers]
        have whole : matched text phase = text := by
          cases phase <;> first | rfl | cases complete
        simp [convertible, goes, whole, Value.admitted]
      · split at reads
        · next minus =>
          cases reads
          rw [held_waiting rfl, minus.1]
          simp [convertible, matched, NumberPhase.next, minus.2, integerDigits, within]
        · cases reads
  | word rest value =>
    apply closed
    rw [here rfl]
    dsimp only at reads
    split at reads
    · cases reads
    · rw [Option.ite_none_right_eq_some] at reads
      obtain ⟨-, reads⟩ := reads
      split at reads
      · rw [held_deliver reads]
        have admitted : value.admitted limits stack.length = true := by
          cases value <;> first | rfl | exact constants | cases sound
        rw [admitted]
        rfl
      · cases reads
        rfl

theorem sound_deliver {value : Value} {stack : List Frame} {reader : Reader}
    (delivers : deliver value stack = some reader) : reader.sound = true := by
  unfold deliver at delivers
  split at delivers <;> cases delivers <;> rfl

theorem sound_close {stack : List Frame} {reader : Reader}
    (closes : closeArray stack = some reader ∨ closeObject stack = some reader) :
    reader.sound = true := by
  rcases closes with closes | closes
  · unfold closeArray at closes
    split at closes
    · exact sound_deliver closes
    · cases closes
  · unfold closeObject at closes
    split at closes
    · exact sound_deliver closes
    · cases closes

theorem sound_pass {c : Char} {reader next : Reader} (sound : reader.sound = true)
    (passes : pass c reader = some next) : next.sound = true := by
  unfold pass at passes
  split at passes
  · cases passes
    exact sound
  · split at passes
    · unfold afterValue at passes
      split at passes
      · rcases ite_eq_iff.mp passes with ⟨-, comma⟩ | ⟨-, passes⟩
        · cases comma
          rfl
        · rcases ite_eq_iff.mp passes with ⟨-, closes⟩ | ⟨-, passes⟩
          · exact sound_close (.inl closes)
          · cases passes
      · rcases ite_eq_iff.mp passes with ⟨-, comma⟩ | ⟨-, passes⟩
        · cases comma
          rfl
        · rcases ite_eq_iff.mp passes with ⟨-, closes⟩ | ⟨-, passes⟩
          · exact sound_close (.inr closes)
          · cases passes
      · cases passes
    · cases passes

theorem sound_step {reader next : Reader} {c : Char} (sound : reader.sound = true)
    (reads : step reader c = some next) : next.sound = true := by
  obtain ⟨stack, mode⟩ := reader
  unfold step at reads
  cases mode with
  | value closes =>
    rcases ite_eq_iff.mp reads with ⟨-, blank⟩ | ⟨-, reads⟩
    · cases blank
      rfl
    · rcases ite_eq_iff.mp reads with ⟨-, closes⟩ | ⟨-, begins⟩
      · exact sound_close (.inl closes)
      · exact (beginValue_cases ⟨true, none, none⟩ begins).2.1
  | key closes =>
    rcases ite_eq_iff.mp reads with ⟨-, blank⟩ | ⟨-, reads⟩
    · cases blank
      rfl
    · rcases ite_eq_iff.mp reads with ⟨-, closes⟩ | ⟨-, reads⟩
      · exact sound_close (.inr closes)
      · rw [Option.ite_none_right_eq_some, Option.some.injEq] at reads
        rw [← reads.2]
        rfl
  | colon =>
    rcases ite_eq_iff.mp reads with ⟨-, blank⟩ | ⟨-, reads⟩
    · cases blank
      rfl
    · rw [Option.ite_none_right_eq_some, Option.some.injEq] at reads
      rw [← reads.2]
      rfl
  | after | done => exact sound_pass sound reads
  | text content =>
    rcases ite_eq_iff.mp reads with ⟨-, delivers⟩ | ⟨-, reads⟩
    · unfold deliverText at delivers
      split at delivers
      · cases delivers
        rfl
      · exact sound_deliver delivers
    · rcases ite_eq_iff.mp reads with ⟨-, escapes⟩ | ⟨-, reads⟩
      · cases escapes
        rfl
      · rw [Option.ite_none_left_eq_some, Option.some.injEq] at reads
        rw [← reads.2]
        rfl
  | escape content =>
    rcases ite_eq_iff.mp reads with ⟨-, unicode⟩ | ⟨-, reads⟩
    · cases unicode
      rfl
    · obtain ⟨char, -, rfl⟩ := Option.map_eq_some_iff.mp reads
      rfl
  | unicode content digits unit =>
    obtain ⟨digit, -, same⟩ := Option.map_eq_some_iff.mp reads
    rw [← same]
    split <;> rfl
  | number text phase =>
    dsimp only at reads
    split at reads
    · cases reads
      rfl
    · rcases ite_eq_iff.mp reads with ⟨-, ends⟩ | ⟨-, reads⟩
      · obtain ⟨delivered, delivers, passes⟩ := Option.bind_eq_some_iff.mp ends
        exact sound_pass (sound_deliver delivers) passes
      · rw [Option.ite_none_right_eq_some, Option.some.injEq] at reads
        rw [← reads.2]
        rfl
  | word rest value =>
    dsimp only at reads
    split at reads
    · cases reads
    · rw [Option.ite_none_right_eq_some] at reads
      rcases ite_eq_iff.mp reads.2 with ⟨-, delivers⟩ | ⟨-, goes⟩
      · exact sound_deliver delivers
      · cases goes
        exact sound

theorem excess_none {reader : Reader} {next : Option Char} :
    excess limits reader next = none ↔
      within limits.depth reader.stack.length = true ∧ convertible limits next reader.mode = true := by
  unfold excess
  cases within limits.depth reader.stack.length <;> cases convertible limits next reader.mode <;> simp

theorem within_of_firstExcess {reader : Reader} {text : List Char}
    (none : firstExcess limits reader text = none) :
    within limits.depth reader.stack.length = true := by
  cases text with
  | nil => exact (excess_none.mp none).1
  | cons c rest =>
    rw [firstExcess, Option.or_eq_none_iff] at none
    exact (excess_none.mp none.1).1

theorem finish_admitted {reader : Reader} {value : Value} (sound : reader.sound = true)
    (finishes : finish reader = some value) :
    (held limits reader = true ∧ excess limits reader none = none) ↔
      value.admitted limits 0 = true := by
  have empty : within limits.depth 0 = true := @framesHeld_depth limits [] rfl
  obtain ⟨stack, mode⟩ := reader
  cases mode with
  | done result =>
    cases finishes
    obtain rfl : stack = [] := List.isEmpty_iff.mp sound
    simp [excess_none, held, framesHeld, Mode.ended, convertible, empty]
  | number text phase =>
    simp only [finish, Option.ite_none_right_eq_some, Option.some.injEq, Bool.and_eq_true] at finishes
    obtain ⟨⟨complete, alone⟩, rfl⟩ := finishes
    obtain rfl : stack = [] := List.isEmpty_iff.mp alone
    have whole : matched text phase = text := by
      cases phase <;> first | rfl | cases complete
    simp [excess_none, held, framesHeld, Mode.ended, convertible, empty, whole, Value.admitted]
  | _ => cases finishes

-- Where a value is read, its scan exceeds a limit just when the value does.
theorem firstExcess_admitted (constants : limits.constants = true) {reader : Reader}
    (sound : reader.sound = true) {text : List Char} {value : Value}
    (reads : (run reader text).bind finish = some value) :
    (held limits reader = true ∧ firstExcess limits reader text = none) ↔
      value.admitted limits 0 = true := by
  induction text generalizing reader with
  | nil => exact finish_admitted sound reads
  | cons c rest ih =>
    obtain ⟨last, runs, finishes⟩ := Option.bind_eq_some_iff.mp reads
    rw [run, List.foldlM_cons] at runs
    obtain ⟨next, steps, later⟩ := Option.bind_eq_some_iff.mp runs
    have kept := held_step constants sound steps
    have whole := ih (sound_step sound steps) (Option.bind_eq_some_iff.mpr ⟨last, later, finishes⟩)
    rw [← whole, kept, firstExcess, steps, Option.bind_some, Option.or_eq_none_iff, excess_none]
    simp only [Bool.and_eq_true]
    constructor
    · rintro ⟨holds, ⟨-, converts⟩, none⟩
      exact ⟨⟨⟨holds, converts⟩, within_of_firstExcess none⟩, none⟩
    · rintro ⟨⟨⟨holds, converts⟩, -⟩, none⟩
      have nested : within limits.depth reader.stack.length = true := by
        rw [← held_depth, Bool.and_eq_true] at holds
        exact holds.2
      exact ⟨holds, ⟨nested, converts⟩, none⟩

def start : Reader :=
  ⟨[], .value false⟩

theorem parse_admitted (constants : limits.constants = true) {text : List Char} {value : Value}
    (reads : parse text = some value) :
    firstExcess limits start text = none ↔ value.admitted limits 0 = true := by
  rw [← firstExcess_admitted constants (show start.sound = true from rfl) reads]
  exact (and_iff_right rfl).symm

end Held

end Json
