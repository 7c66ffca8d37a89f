import VmDeploy.Encoding.TomlStrings

/-! Scalars at the end of a line. -/

set_option autoImplicit false

namespace Toml

def decimalDigits (n : Nat) : Text :=
  (toString n).toList

theorem decimalDigits_eq (n : Nat) : decimalDigits n = Nat.toDigits 10 n := by
  rw [decimalDigits, Nat.toString_eq_ofList_toDigits, String.toList_ofList]

theorem isDigit_decimalDigits (n : Nat) : ∀ c ∈ decimalDigits n, c.isDigit = true := by
  intro c member
  rw [decimalDigits_eq] at member
  exact Nat.isDigit_of_mem_toDigits (by omega) (by omega) member

theorem decimalDigits_ne_nil (n : Nat) : decimalDigits n ≠ [] := by
  rw [decimalDigits_eq]
  exact Nat.toDigits_ne_nil

theorem hexDigit?_digitChar {digit : Nat} (small : digit < 10) :
    hexDigit? digit.digitChar = some digit := by
  have each : ∀ digit : Fin 10, hexDigit? digit.val.digitChar = some digit.val := by decide
  exact each ⟨digit, small⟩

theorem digitsValue_snoc (digits : Text) {digit : Nat} (small : digit < 10) :
    digitsValue 10 (digits ++ [digit.digitChar]) = digitsValue 10 digits * 10 + digit := by
  simp [digitsValue, List.filterMap_append, hexDigit?_digitChar small]

theorem digitsValue_decimalDigits (n : Nat) : digitsValue 10 (decimalDigits n) = n := by
  induction n using Nat.strongRecOn with
  | _ n ih =>
    rw [decimalDigits_eq, Nat.toDigits_eq_if (by omega)]
    split_ifs with small
    · simp [digitsValue, hexDigit?_digitChar small]
    · rw [digitsValue_snoc _ (by omega), ← decimalDigits_eq, ih (n / 10) (by omega)]
      omega

-- Only zero starts with a zero.
theorem decimalDigits_zero {n : Nat} (starts : (decimalDigits n).head? = some '0') : n = 0 := by
  induction n using Nat.strongRecOn with
  | _ n ih =>
    rw [decimalDigits_eq, Nat.toDigits_eq_if (by omega)] at starts
    split_ifs at starts with small
    · have each : ∀ digit : Fin 10, digit.val.digitChar = '0' → digit.val = 0 := by decide
      exact each ⟨n, small⟩ (Option.some.inj starts)
    · rw [← decimalDigits_eq] at starts
      have some_digits := decimalDigits_ne_nil (n / 10)
      cases front : decimalDigits (n / 10) with
      | nil => exact absurd front some_digits
      | cons c digits =>
        rw [front] at starts
        have zero := ih (n / 10) (by omega) (by rw [front]; exact starts)
        omega

section Runs

variable {run rest : Text}

theorem pair?_run (digits : ∀ c ∈ run, c.isDigit = true) {low high value : Nat} {after : Text}
    (read : pair? low high (run ++ '\n' :: rest) = some (value, after)) :
    ∃ left, (∀ c ∈ left, c.isDigit = true) ∧ after = left ++ '\n' :: rest := by
  cases run with
  | nil => cases rest <;> simp [pair?] at read
  | cons c run =>
    cases run with
    | nil => simp [pair?] at read
    | cons d run =>
      simp only [List.cons_append, pair?] at read
      split at read
      · cases read
        exact ⟨run, fun e member => digits e (by simp [member]), rfl⟩
      · cases read

theorem char?_run (digits : ∀ c ∈ run, c.isDigit = true) (expected : Char)
    (other : expected.isDigit = false) (inner : expected ≠ '\n') :
    char? expected (run ++ '\n' :: rest) = none := by
  cases run with
  | nil => simp [char?, inner.symm]
  | cons c run =>
    have differs : c ≠ expected := by
      rintro rfl
      rw [digits c List.mem_cons_self] at other
      cases other
    simp [char?, differs]

theorem date?_run (digits : ∀ c ∈ run, c.isDigit = true) : date? (run ++ '\n' :: rest) = none := by
  unfold date?
  cases first : pair? 0 99 (run ++ '\n' :: rest) with
  | none => rfl
  | some read =>
    obtain ⟨left, still, same⟩ := pair?_run digits first
    obtain ⟨century, after⟩ := read
    obtain rfl : after = _ := same
    cases second : pair? 0 99 (left ++ '\n' :: rest) with
    | none => simp [second]
    | some read =>
      obtain ⟨left', still', same⟩ := pair?_run still second
      obtain ⟨year, after⟩ := read
      obtain rfl : after = _ := same
      simp [second, char?_run still' '-' (by decide) (by decide)]

theorem timeOfDay_run (digits : ∀ c ∈ run, c.isDigit = true) :
    timeOfDay (run ++ '\n' :: rest) = none := by
  unfold timeOfDay
  cases first : pair? 0 23 (run ++ '\n' :: rest) with
  | none => rfl
  | some read =>
    obtain ⟨left, still, same⟩ := pair?_run digits first
    obtain ⟨hour, after⟩ := read
    obtain rfl : after = _ := same
    simp [char?_run still ':' (by decide) (by decide)]

theorem digitRun_run (digits : ∀ c ∈ run, c.isDigit = true) :
    digitRun Char.isDigit (run ++ '\n' :: rest) = '\n' :: rest := by
  induction run with
  | nil => simp [digitRun]
  | cons c run ih =>
    obtain ⟨here, later⟩ := List.forall_mem_cons.mp digits
    unfold digitRun
    rw [List.cons_append]
    simp only [here, if_true]
    exact ih later

theorem skipSign_run (rest : Text) (digits : ∀ c ∈ run, c.isDigit = true) :
    skipSign (run ++ '\n' :: rest) = run ++ '\n' :: rest := by
  cases run with
  | nil => rfl
  | cons c run =>
    have here := digits c List.mem_cons_self
    rw [List.cons_append, skipSign]
    · rintro _ same
      obtain ⟨rfl, -⟩ := List.cons.inj same
      cases here
    · rintro _ same
      obtain ⟨rfl, -⟩ := List.cons.inj same
      cases here

end Runs

section Integers

variable {n : Nat} {rest : Text}

theorem integerPart_digits : integerPart (decimalDigits n ++ '\n' :: rest) = some ('\n' :: rest) := by
  have digits := isDigit_decimalDigits n
  cases whole : decimalDigits n with
  | nil => exact absurd whole (decimalDigits_ne_nil n)
  | cons c run =>
    rw [whole] at digits
    obtain ⟨here, later⟩ := List.forall_mem_cons.mp digits
    by_cases zero : c = '0'
    · have none : n = 0 := decimalDigits_zero (by rw [whole, zero]; rfl)
      rw [none] at whole
      obtain ⟨-, rfl⟩ := List.cons.inj (whole.symm.trans (show decimalDigits 0 = ['0'] by rfl))
      simp [zero, integerPart]
    · rw [List.cons_append, integerPart, if_pos here, digitRun_run later]
      exact zero

theorem radixNumber_digits : radixNumber (decimalDigits n ++ '\n' :: rest) = none := by
  cases whole : decimalDigits n with
  | nil => exact absurd whole (decimalDigits_ne_nil n)
  | cons c run =>
    by_cases zero : c = '0'
    · have none : n = 0 := decimalDigits_zero (by rw [whole, zero]; rfl)
      rw [none] at whole
      obtain ⟨rfl, rfl⟩ := List.cons.inj (whole.symm.trans (show decimalDigits 0 = ['0'] by rfl))
      cases rest <;> simp [radixNumber, radix?]
    · rw [List.cons_append, radixNumber]
      rintro _ _ _ same
      exact zero (List.cons.inj same).1

def converts (digitLimit : Option Nat) (n : Nat) : Bool :=
  digitLimit.all ((decimalDigits n).length ≤ ·)

theorem decimalNumber_digits {digitLimit : Option Nat} (fits : converts digitLimit n = true)
    {text : Text}
    (unsigned : skipSign text = decimalDigits n ++ '\n' :: rest) :
    decimalNumber digitLimit text = some (.integer (signed text n), '\n' :: rest) := by
  have whole : consumed (decimalDigits n ++ '\n' :: rest) ('\n' :: rest) = decimalDigits n := by
    simp [consumed]
  have digits : (decimalDigits n).filter (·.isDigit) = decimalDigits n :=
    List.filter_eq_self.mpr (isDigit_decimalDigits n)
  rw [converts] at fits
  simp [decimalNumber, unsigned, integerPart_digits, skipFraction, skipExponent, whole, digits,
    digitsValue_decimalDigits, fits]

end Integers

theorem toList_toString_int (value : Int) : (toString value).toList =
    if 0 ≤ value then decimalDigits value.natAbs else '-' :: decimalDigits value.natAbs := by
  cases value with
  | ofNat n => rfl
  | negSucc n =>
    rw [if_neg (by omega)]
    have written : toString (Int.negSucc n) = "-" ++ toString (n + 1) := rfl
    rw [written, String.toList_append]
    rfl

-- An integer that fits is read as it is written.
theorem plainValue_integer {digitLimit : Option Nat} {value : Int}
    (fits : converts digitLimit value.natAbs = true) (rest : Text) :
    plainValue digitLimit ((toString value).toList ++ '\n' :: rest) =
      some (.integer value, '\n' :: rest) := by
  rw [toList_toString_int]
  have digits := isDigit_decimalDigits value.natAbs
  split_ifs with sign
  · have unsigned := skipSign_run rest digits
    have number := decimalNumber_digits fits unsigned
    have positive : signed (decimalDigits value.natAbs ++ '\n' :: rest) value.natAbs = value := by
      rw [signed, if_neg, Int.natAbs_of_nonneg sign]
      intro minus
      cases whole : decimalDigits value.natAbs with
      | nil => exact absurd whole (decimalDigits_ne_nil _)
      | cons c run =>
        rw [whole] at minus digits
        obtain rfl : c = '-' := Option.some.inj minus
        cases digits '-' List.mem_cons_self
    rw [positive] at number
    simp [plainValue, date?_run digits, timeOfDay_run digits, radixNumber_digits, unsigned,
      integerPart_digits, number]
  · have unsigned : skipSign ('-' :: (decimalDigits value.natAbs ++ '\n' :: rest)) =
        decimalDigits value.natAbs ++ '\n' :: rest := rfl
    have number := decimalNumber_digits fits unsigned
    have negative : signed ('-' :: (decimalDigits value.natAbs ++ '\n' :: rest)) value.natAbs =
        value := by
      simp only [signed, List.head?_cons, if_true]
      omega
    rw [negative] at number
    have noDate : date? ('-' :: (decimalDigits value.natAbs ++ '\n' :: rest)) = none := by
      cases whole : decimalDigits value.natAbs <;> simp [date?, pair?]
    have noTime : timeOfDay ('-' :: (decimalDigits value.natAbs ++ '\n' :: rest)) = none := by
      cases whole : decimalDigits value.natAbs <;> simp [timeOfDay, pair?]
    simp [plainValue, noDate, noTime, radixNumber, unsigned, integerPart_digits, number]

-- Whatever starts neither a string, a boolean nor a bracket.
theorem readValue_other {digitLimit : Option Nat} {c : Char} (other : c.isDigit = true ∨ c = '-')
    (fuel : Nat) (rest : Text) :
    readValue digitLimit (fuel + 1) (c :: rest) = plainValue digitLimit (c :: rest) := by
  have differs : ∀ d : Char, d.isDigit = false → d ≠ '-' → c ≠ d := by
    rintro d noDigit noMinus rfl
    rcases other with digit | minus
    · rw [noDigit] at digit
      cases digit
    · exact noMinus minus
  have starts : ∀ (d : Char) (more : Text), d.isDigit = false → d ≠ '-' → c :: rest ≠ d :: more :=
    fun d more noDigit noMinus same => differs d noDigit noMinus (List.cons.inj same).1
  rw [readValue]
  · exact fun _ => starts '"' _ (by decide) (by decide)
  · exact fun _ => starts '"' _ (by decide) (by decide)
  · exact fun _ => starts '\'' _ (by decide) (by decide)
  · exact fun _ => starts '\'' _ (by decide) (by decide)
  · exact fun _ => starts 't' _ (by decide) (by decide)
  · exact fun _ => starts 'f' _ (by decide) (by decide)
  · exact fun _ => starts '[' _ (by decide) (by decide)
  · exact fun _ => starts '\x7b' _ (by decide) (by decide)

theorem readValue_integer {digitLimit : Option Nat} {value : Int}
    (fits : converts digitLimit value.natAbs = true) (fuel : Nat) (rest : Text) :
    readValue digitLimit (fuel + 1) ((toString value).toList ++ '\n' :: rest) =
      some (.integer value, '\n' :: rest) := by
  have number := plainValue_integer fits rest
  rw [toList_toString_int] at number ⊢
  split_ifs at number ⊢
  · cases whole : decimalDigits value.natAbs with
    | nil => exact absurd whole (decimalDigits_ne_nil _)
    | cons c run =>
      have digit := isDigit_decimalDigits value.natAbs c (by simp [whole])
      rw [whole] at number
      rw [List.cons_append] at number ⊢
      rw [readValue_other (.inl digit), number]
  · rw [List.cons_append] at number ⊢
    rw [readValue_other (.inr rfl), number]

theorem readValue_boolean {digitLimit : Option Nat} (value : Bool) (fuel : Nat) (rest : Text) :
    readValue digitLimit (fuel + 1) ((if value then "true" else "false").toList ++ rest) =
      some (.boolean value, rest) := by
  cases value <;> simp [readValue]

end Toml
