import VmDeploy.Encoding.Base64

/-! `binascii.a2b_base64` in its strict mode, as `base64.b64decode(validate=True)` calls it.

Padding after a whole quantum was ignored by the older releases and is an error in
the newer ones, so the release is a parameter. -/

set_option autoImplicit false

namespace Python

/-- The loop over the text, in the state of the C code: the bytes written, the position
in the quad, the value of the character before, the padding seen in a row and whether
any has been seen. -/
def a2bLoop (ignoresExcess : Bool) (out : List UInt8) (quad left pads : Nat) (padded : Bool) :
    List UInt8 → Except String (List UInt8)
  | [] =>
      if quad = 0 then .ok out
      else if quad = 1 then
        let characters := out.length / 3 * 4 + 1
        .error (s!"Invalid base64-encoded string: number of data characters ({characters}) " ++
          "cannot be 1 more than a multiple of 4")
      else .error "Incorrect padding"
  | char :: rest =>
      if char = Base64.pad then
        if quad = 0 && !ignoresExcess then .error "Excess padding not allowed"
        else if 2 ≤ quad then
          if 4 ≤ quad + (pads + 1) then
            if rest = [] then .ok out else .error "Excess data after padding"
          else a2bLoop ignoresExcess out quad left (pads + 1) true rest
        else a2bLoop ignoresExcess out quad left pads true rest
      else
        match Base64.value? char with
        | none => .error "Only base64 data is allowed"
        | some value =>
            if padded then .error "Discontinuous padding not allowed"
            else if quad = 0 then a2bLoop ignoresExcess out 1 value 0 padded rest
            else if quad = 1 then
              a2bLoop ignoresExcess (out ++ [Base64.first left value]) 2 value 0 padded rest
            else if quad = 2 then
              a2bLoop ignoresExcess (out ++ [Base64.second left value]) 3 value 0 padded rest
            else a2bLoop ignoresExcess (out ++ [Base64.third left value]) 0 0 0 padded rest

def a2bBase64 (ignoresExcess : Bool) (text : List UInt8) : Except String (List UInt8) :=
  if text.head? = some Base64.pad then .error "Leading padding not allowed"
  else a2bLoop ignoresExcess [] 0 0 0 false text

/-- Padding alone follows whole quanta without padding. -/
def excessPadded : List UInt8 → Bool
  | w :: x :: y :: z :: rest =>
      [w, x, y, z].all (· != Base64.pad) &&
        ((!rest.isEmpty && rest.all (· == Base64.pad)) || excessPadded rest)
  | _ => false

section Loop

variable {ignoresExcess : Bool} {out rest : List UInt8} {char : UInt8} {quad left pads value : Nat}

attribute [local simp] a2bLoop

theorem ne_pad (known : Base64.value? char = some value) : char ≠ Base64.pad := by
  rintro rfl
  rw [Base64.value_pad] at known
  cases known

theorem a2bLoop_zero (known : Base64.value? char = some value) :
    a2bLoop ignoresExcess out 0 left pads false (char :: rest) =
      a2bLoop ignoresExcess out 1 value 0 false rest := by
  simp [ne_pad known, known]

theorem a2bLoop_one (known : Base64.value? char = some value) :
    a2bLoop ignoresExcess out 1 left pads false (char :: rest) =
      a2bLoop ignoresExcess (out ++ [Base64.first left value]) 2 value 0 false rest := by
  simp [ne_pad known, known]

theorem a2bLoop_two (known : Base64.value? char = some value) :
    a2bLoop ignoresExcess out 2 left pads false (char :: rest) =
      a2bLoop ignoresExcess (out ++ [Base64.second left value]) 3 value 0 false rest := by
  simp [ne_pad known, known]

theorem a2bLoop_three (known : Base64.value? char = some value) :
    a2bLoop ignoresExcess out 3 left pads false (char :: rest) =
      a2bLoop ignoresExcess (out ++ [Base64.third left value]) 0 0 0 false rest := by
  simp [ne_pad known, known]

theorem a2bLoop_unknown {padded : Bool} (plain : char ≠ Base64.pad)
    (unknown : Base64.value? char = none) :
    (a2bLoop ignoresExcess out quad left pads padded (char :: rest)).toOption = none := by
  simp [plain, unknown, Except.toOption]

theorem a2bLoop_discontinuous (plain : char ≠ Base64.pad) :
    (a2bLoop ignoresExcess out quad left pads true (char :: rest)).toOption = none := by
  cases known : Base64.value? char with
  | none => exact a2bLoop_unknown plain known
  | some value => simp [plain, known, Except.toOption]

theorem a2bLoop_pad {padded : Bool} : a2bLoop ignoresExcess out quad left pads padded
    (Base64.pad :: rest) =
      if quad = 0 && !ignoresExcess then .error "Excess padding not allowed"
      else if 2 ≤ quad then
        if 4 ≤ quad + (pads + 1) then
          if rest = [] then .ok out else .error "Excess data after padding"
        else a2bLoop ignoresExcess out quad left (pads + 1) true rest
      else a2bLoop ignoresExcess out quad left pads true rest := by
  simp

-- After padding in front of a quad, nothing but padding is read.
theorem a2bLoop_padded (text : List UInt8) :
    (a2bLoop ignoresExcess out 0 left pads true text).toOption =
      if text.all (· == Base64.pad) && (ignoresExcess || text.isEmpty) then some out else none := by
  induction text with
  | nil => simp [Except.toOption]
  | cons char rest ih =>
    by_cases padding : char = Base64.pad
    · subst padding
      rw [a2bLoop_pad]
      cases ignoresExcess with
      | false => simp [Except.toOption]
      | true => simpa using ih
    · rw [a2bLoop_discontinuous padding]
      simp [padding]

-- A single character of a quad cannot be padded.
theorem a2bLoop_stuck (text : List UInt8) :
    (a2bLoop ignoresExcess out 1 left pads true text).toOption = none := by
  induction text with
  | nil => simp [Except.toOption]
  | cons char rest ih =>
    by_cases padding : char = Base64.pad
    · subst padding
      rw [a2bLoop_pad]
      simpa using ih
    · exact a2bLoop_discontinuous padding

end Loop

theorem decode_pad (rest : List UInt8) : Base64.decode (Base64.pad :: rest) = none := by
  match rest with
  | [] | [_] | [_, _] => rfl
  | x :: y :: z :: rest => simp [Base64.decode, Base64.value_pad]

theorem a2bLoop_short {ignoresExcess : Bool} {text out : List UInt8}
    (leads : text.head? ≠ some Base64.pad) (nonempty : text ≠ []) (short : text.length < 4) :
    (a2bLoop ignoresExcess out 0 0 0 false text).toOption = none := by
  match text with
  | [] => exact absurd rfl nonempty
  | w :: text =>
    have plain : w ≠ Base64.pad := by simpa using leads
    cases first : Base64.value? w with
    | none => exact a2bLoop_unknown plain first
    | some p =>
    rw [a2bLoop_zero first]
    match text with
    | [] => simp [a2bLoop, Except.toOption]
    | x :: text =>
      by_cases stuck : x = Base64.pad
      · subst stuck
        rw [a2bLoop_pad]
        simp [a2bLoop_stuck]
      cases second : Base64.value? x with
      | none => exact a2bLoop_unknown stuck second
      | some q =>
      rw [a2bLoop_one second]
      match text with
      | [] => simp [a2bLoop, Except.toOption]
      | [y] =>
        by_cases two : y = Base64.pad
        · simp [two, a2bLoop, Except.toOption]
        cases third : Base64.value? y with
        | none => exact a2bLoop_unknown two third
        | some r =>
          rw [a2bLoop_two third]
          simp [a2bLoop, Except.toOption]
      | _ :: _ :: _ =>
        simp only [List.length_cons] at short
        omega

-- From the start of a quad, the loop and the decoding of quanta agree, but where
-- padding is ignored after a whole quantum.
theorem a2bLoop_eq_decode {ignoresExcess : Bool} {text : List UInt8}
    (leads : text.head? ≠ some Base64.pad) (regular : (ignoresExcess && excessPadded text) = false)
    (out : List UInt8) :
    (a2bLoop ignoresExcess out 0 0 0 false text).toOption =
      (Base64.decode text).map (out ++ ·) := by
  induction text using Base64.decode.induct generalizing out with
  | case1 => simp [a2bLoop, Base64.decode, Except.toOption]
  | case2 w x y z rest ih =>
    have plain : w ≠ Base64.pad := by simpa using leads
    cases first : Base64.value? w with
    | none =>
      rw [a2bLoop_unknown plain first]
      simp [Base64.decode, first]
    | some p =>
    rw [a2bLoop_zero first]
    by_cases stuck : x = Base64.pad
    · rw [stuck, a2bLoop_pad]
      simp [a2bLoop_stuck, Base64.decode, first, Base64.value_pad]
    cases second : Base64.value? x with
    | none =>
      rw [a2bLoop_unknown stuck second]
      simp [Base64.decode, first, second]
    | some q =>
    rw [a2bLoop_one second]
    simp only [Base64.decode, first, second, Option.bind_eq_bind, Option.bind_some]
    by_cases two : y = Base64.pad
    · rw [two, if_pos rfl, a2bLoop_pad]
      by_cases last : z = Base64.pad
      · rw [last, a2bLoop_pad]
        by_cases empty : rest = [] <;> simp [empty, Except.toOption]
      · simp [a2bLoop_discontinuous last, last]
    cases third : Base64.value? y with
    | none =>
      rw [a2bLoop_unknown two third]
      simp [two]
    | some r =>
    rw [a2bLoop_two third, if_neg two, Option.bind_some]
    by_cases one : z = Base64.pad
    · rw [one, if_pos rfl, a2bLoop_pad]
      by_cases empty : rest = [] <;> simp [empty, Except.toOption]
    cases fourth : Base64.value? z with
    | none =>
      rw [a2bLoop_unknown one fourth]
      simp [one]
    | some s =>
    rw [a2bLoop_three fourth, if_neg one, Option.bind_some]
    have pieces : excessPadded (w :: x :: y :: z :: rest) =
        ((!rest.isEmpty && rest.all (· == Base64.pad)) || excessPadded rest) := by
      simp [excessPadded, plain, stuck, two, one]
    rw [pieces] at regular
    by_cases excess : rest.head? = some Base64.pad
    · -- padding after a whole quantum
      obtain ⟨rest, rfl⟩ : ∃ more, rest = Base64.pad :: more := by
        cases rest with
        | nil => cases excess
        | cons char more => exact ⟨more, congrArg (· :: more) (Option.some.inj excess)⟩
      rw [decode_pad, a2bLoop_pad]
      cases ignoresExcess with
      | false => simp [Except.toOption]
      | true =>
        rw [Bool.true_and, Bool.or_eq_false_iff] at regular
        have mixed : rest.all (· == Base64.pad) = false := by simpa using regular.1
        simp [a2bLoop_padded, mixed]
    · have later : (ignoresExcess && excessPadded rest) = false := by
        cases ignoresExcess with
        | false => rfl
        | true =>
          rw [Bool.true_and, Bool.or_eq_false_iff] at regular
          exact regular.2
      rw [ih excess later]
      cases Base64.decode rest <;> simp
  | case3 text short long =>
    rw [Base64.decode]
    · rcases text with _ | ⟨w, _ | ⟨x, _ | ⟨y, _ | ⟨z, rest⟩⟩⟩⟩
      · exact absurd rfl short
      · exact a2bLoop_short leads short (by simp)
      · exact a2bLoop_short leads short (by simp)
      · exact a2bLoop_short leads short (by simp)
      · exact absurd rfl (long w x y z rest)
    · exact short
    · exact long

theorem a2bBase64_eq_decode {ignoresExcess : Bool} {text : List UInt8}
    (regular : (ignoresExcess && excessPadded text) = false) :
    (a2bBase64 ignoresExcess text).toOption = Base64.decode text := by
  unfold a2bBase64
  split
  · next leads =>
    cases text with
    | nil => cases leads
    | cons char rest =>
      cases leads
      rw [decode_pad]
      rfl
  · next leads =>
    rw [a2bLoop_eq_decode leads regular]
    simp

-- What the loop reads in front of excess padding.
theorem a2bLoop_excess {text : List UInt8} (excess : excessPadded text = true) {out bytes : List UInt8}
    (reads : (a2bLoop true out 0 0 0 false text).toOption = some bytes) :
    ∃ core count, text = core ++ List.replicate count Base64.pad ∧
      (Base64.decode core).map (out ++ ·) = some bytes := by
  induction text using Base64.decode.induct generalizing out with
  | case1 => cases excess
  | case2 w x y z rest ih =>
    simp only [excessPadded, Bool.and_eq_true, List.all_cons, List.all_nil, bne_iff_ne,
      and_true] at excess
    obtain ⟨⟨plain, stuck, two, one⟩, later⟩ := excess
    cases first : Base64.value? w with
    | none =>
      rw [a2bLoop_unknown plain first] at reads
      cases reads
    | some p =>
    cases second : Base64.value? x with
    | none =>
      rw [a2bLoop_zero first, a2bLoop_unknown stuck second] at reads
      cases reads
    | some q =>
    cases third : Base64.value? y with
    | none =>
      rw [a2bLoop_zero first, a2bLoop_one second, a2bLoop_unknown two third] at reads
      cases reads
    | some r =>
    cases fourth : Base64.value? z with
    | none =>
      rw [a2bLoop_zero first, a2bLoop_one second, a2bLoop_two third,
        a2bLoop_unknown one fourth] at reads
      cases reads
    | some s =>
    rw [a2bLoop_zero first, a2bLoop_one second, a2bLoop_two third, a2bLoop_three fourth] at reads
    have quantum : ∀ core, Base64.decode (w :: x :: y :: z :: core) =
        (Base64.decode core).map
          ([Base64.first p q, Base64.second q r, Base64.third r s] ++ ·) := by
      intro core
      simp only [Base64.decode, first, second, third, fourth, if_neg two, if_neg one,
        Option.bind_eq_bind, Option.bind_some]
      cases Base64.decode core <;> rfl
    rcases Bool.or_eq_true_iff.mp later with padding | excess
    · obtain ⟨nonempty, all⟩ := Bool.and_eq_true_iff.mp padding
      have pads : ∀ char ∈ rest, char = Base64.pad := by simpa using all
      refine ⟨[w, x, y, z], rest.length, ?_, ?_⟩
      · rw [← List.eq_replicate_of_mem pads]
        rfl
      · cases rest with
        | nil => cases nonempty
        | cons char more =>
          obtain ⟨rfl, others⟩ := List.forall_mem_cons.mp pads
          have tail : (more.all (· == Base64.pad) && (true || more.isEmpty)) = true := by
            simpa using others
          rw [a2bLoop_pad, if_neg (by decide), if_neg (by decide), a2bLoop_padded, if_pos tail] at reads
          rw [quantum, ← reads]
          simp [Base64.decode]
    · obtain ⟨core, count, rfl, decodes⟩ := ih excess reads
      refine ⟨w :: x :: y :: z :: core, count, rfl, ?_⟩
      rw [quantum, ← decodes, Option.map_map]
      simp only [Function.comp_def, List.append_assoc, List.cons_append,
        List.nil_append]
  | case3 text short long =>
    rcases text with _ | ⟨w, _ | ⟨x, _ | ⟨y, _ | ⟨z, rest⟩⟩⟩⟩
    · exact absurd rfl short
    · cases excess
    · cases excess
    · cases excess
    · exact absurd rfl (long w x y z rest)

-- What is accepted is base64, up to padding that is ignored.
theorem a2bBase64_reads {ignoresExcess : Bool} {text bytes : List UInt8}
    (reads : (a2bBase64 ignoresExcess text).toOption = some bytes) :
    Base64.decode text = some bytes ∨ ignoresExcess = true ∧
      ∃ core count, text = core ++ List.replicate count Base64.pad ∧
        Base64.decode core = some bytes := by
  cases regular : ignoresExcess && excessPadded text with
  | false =>
    left
    rw [← reads, a2bBase64_eq_decode regular]
  | true =>
    right
    obtain ⟨rfl, excess⟩ := Bool.and_eq_true_iff.mp regular
    refine ⟨rfl, ?_⟩
    unfold a2bBase64 at reads
    split at reads
    · cases reads
    · obtain ⟨core, count, spelled, decodes⟩ := a2bLoop_excess excess reads
      exact ⟨core, count, spelled, by simpa using decodes⟩

-- Padding is in excess only behind whole quanta, which are three bytes each.
theorem excess_whole {core rest bytes : List UInt8} (excess : excessPadded (core ++ rest) = true)
    (decodes : Base64.decode core = some bytes) : bytes.length % 3 = 0 := by
  induction core using Base64.decode.induct generalizing bytes with
  | case1 =>
    cases decodes
    rfl
  | case2 w x y z core ih =>
    simp only [List.cons_append, excessPadded, Bool.and_eq_true, List.all_cons, List.all_nil,
      bne_iff_ne, and_true] at excess
    obtain ⟨⟨-, -, two, one⟩, later⟩ := excess
    simp only [Base64.decode, Option.bind_eq_bind, Option.bind_eq_some_iff, if_neg two,
      if_neg one] at decodes
    obtain ⟨p, -, q, -, r, -, s, -, tail, reads, whole⟩ := decodes
    obtain rfl := Option.some.inj whole
    have short : tail.length % 3 = 0 := by
      rcases Bool.or_eq_true_iff.mp later with padding | excess
      · cases core with
        | nil =>
          cases reads
          rfl
        | cons char more =>
          have first : char = Base64.pad := by
            simp only [List.cons_append, List.all_cons, Bool.and_eq_true, beq_iff_eq] at padding
            exact padding.2.1
          rw [first, decode_pad] at reads
          cases reads
      · exact ih excess reads
    simp only [List.length_cons]
    omega
  | case3 text short long =>
    rw [Base64.decode] at decodes
    · cases decodes
    · exact short
    · exact long

end Python
