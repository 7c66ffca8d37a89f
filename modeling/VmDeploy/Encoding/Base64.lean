import Mathlib.Data.List.Basic

/-! Base64 with the standard alphabet and padding.

Decoding takes whole quanta and ignores the unused bits of a padded one, so several
texts may decode to the same bytes; `decode_respells` says which. -/

set_option autoImplicit false

namespace Base64

def pad : UInt8 := 61

def value? (symbol : UInt8) : Option Nat :=
  let code := symbol.toNat
  if 65 ≤ code ∧ code ≤ 90 then some (code - 65)
  else if 97 ≤ code ∧ code ≤ 122 then some (code - 71)
  else if 48 ≤ code ∧ code ≤ 57 then some (code + 4)
  else if code = 43 then some 62
  else if code = 47 then some 63
  else none

def symbol (value : Nat) : UInt8 :=
  if value < 26 then UInt8.ofNat (value + 65)
  else if value < 52 then UInt8.ofNat (value + 71)
  else if value < 62 then UInt8.ofNat (value - 4)
  else if value = 62 then 43
  else 47

def first (p q : Nat) : UInt8 := UInt8.ofNat (p * 4 + q / 16)

def second (q r : Nat) : UInt8 := UInt8.ofNat (q % 16 * 16 + r / 4)

def third (r s : Nat) : UInt8 := UInt8.ofNat (r % 4 * 64 + s)

def encode : List UInt8 → List UInt8
  | a :: b :: c :: rest =>
      symbol (a.toNat / 4) :: symbol (a.toNat % 4 * 16 + b.toNat / 16) ::
        symbol (b.toNat % 16 * 4 + c.toNat / 64) :: symbol (c.toNat % 64) :: encode rest
  | [a, b] =>
      [symbol (a.toNat / 4), symbol (a.toNat % 4 * 16 + b.toNat / 16), symbol (b.toNat % 16 * 4), pad]
  | [a] => [symbol (a.toNat / 4), symbol (a.toNat % 4 * 16), pad, pad]
  | [] => []

def decode : List UInt8 → Option (List UInt8)
  | [] => some []
  | w :: x :: y :: z :: rest => do
      let p ← value? w
      let q ← value? x
      if y = pad then
        if z = pad ∧ rest = [] then some [first p q] else none
      else
        let r ← value? y
        if z = pad then
          if rest = [] then some [first p q, second q r] else none
        else
          let s ← value? z
          let later ← decode rest
          some (first p q :: second q r :: third r s :: later)
  | _ => none

theorem value_symbol {value : Nat} (small : value < 64) : value? (symbol value) = some value := by
  have all : ∀ value : Fin 64, value? (symbol value) = some value.val := by decide
  exact all ⟨value, small⟩

theorem symbol_of_value {char : UInt8} {value : Nat} (known : value? char = some value) :
    symbol value = char ∧ value < 64 := by
  have all : ∀ code : Fin 256, ∀ value ∈ value? (UInt8.ofNat code),
      symbol value = UInt8.ofNat code ∧ value < 64 := by decide +kernel
  have here := all ⟨char.toNat, char.toNat_lt⟩ value
  simp only [UInt8.ofNat_toNat] at here
  exact here known

theorem value_pad : value? pad = none := by decide

theorem symbol_ne_pad {value : Nat} (small : value < 64) : symbol value ≠ pad := by
  intro same
  have known := value_symbol small
  rw [same, value_pad] at known
  cases known

theorem first_digits (a : UInt8) (low : Nat) (small : low < 16) :
    first (a.toNat / 4) (a.toNat % 4 * 16 + low) = a := by
  have bound := a.toNat_lt
  have value : a.toNat / 4 * 4 + (a.toNat % 4 * 16 + low) / 16 = a.toNat := by omega
  rw [first, value, UInt8.ofNat_toNat]

theorem second_digits (b : UInt8) (high low : Nat) (small : low < 4) :
    second (high * 16 + b.toNat / 16) (b.toNat % 16 * 4 + low) = b := by
  have bound := b.toNat_lt
  have value : (high * 16 + b.toNat / 16) % 16 * 16 + (b.toNat % 16 * 4 + low) / 4 = b.toNat := by
    omega
  rw [second, value, UInt8.ofNat_toNat]

theorem third_digits (c : UInt8) (high : Nat) :
    third (high * 4 + c.toNat / 64) (c.toNat % 64) = c := by
  have bound := c.toNat_lt
  have value : (high * 4 + c.toNat / 64) % 4 * 64 + c.toNat % 64 = c.toNat := by omega
  rw [third, value, UInt8.ofNat_toNat]

theorem decode_encode (bytes : List UInt8) : decode (encode bytes) = some bytes := by
  induction bytes using encode.induct with
  | case1 a b c rest ih =>
    have := a.toNat_lt
    have := b.toNat_lt
    have := c.toNat_lt
    simp only [encode, decode, ih, value_symbol (show a.toNat / 4 < 64 by omega),
      value_symbol (show a.toNat % 4 * 16 + b.toNat / 16 < 64 by omega),
      value_symbol (show b.toNat % 16 * 4 + c.toNat / 64 < 64 by omega),
      value_symbol (show c.toNat % 64 < 64 by omega),
      if_neg (symbol_ne_pad (show b.toNat % 16 * 4 + c.toNat / 64 < 64 by omega)),
      if_neg (symbol_ne_pad (show c.toNat % 64 < 64 by omega)), Option.bind_eq_bind,
      Option.bind_some]
    rw [first_digits a _ (by omega), second_digits b _ _ (by omega), third_digits]
  | case2 a b =>
    have := a.toNat_lt
    have := b.toNat_lt
    simp only [encode, decode, value_symbol (show a.toNat / 4 < 64 by omega),
      value_symbol (show a.toNat % 4 * 16 + b.toNat / 16 < 64 by omega),
      value_symbol (show b.toNat % 16 * 4 < 64 by omega),
      if_neg (symbol_ne_pad (show b.toNat % 16 * 4 < 64 by omega)), if_true, Option.bind_eq_bind,
      Option.bind_some]
    rw [first_digits a _ (by omega)]
    exact congrArg (fun last => some [a, last]) (second_digits b (a.toNat % 4) 0 (by omega))
  | case3 a =>
    have := a.toNat_lt
    simp only [encode, decode, value_symbol (show a.toNat / 4 < 64 by omega),
      value_symbol (show a.toNat % 4 * 16 < 64 by omega), if_true, and_self, Option.bind_eq_bind,
      Option.bind_some]
    exact congrArg (fun last => some [last]) (first_digits a 0 (by omega))
  | case4 => rfl

theorem encode_injective : Function.Injective encode := by
  intro bytes others same
  have decoded := congrArg decode same
  rw [decode_encode, decode_encode] at decoded
  exact Option.some.inj decoded

theorem encode_alphabet (bytes : List UInt8) :
    ∀ char ∈ encode bytes, (∃ value < 64, symbol value = char) ∨ char = pad := by
  induction bytes using encode.induct with
  | case1 a b c rest ih =>
    have := a.toNat_lt
    have := b.toNat_lt
    have := c.toNat_lt
    simp only [encode, List.forall_mem_cons]
    exact ⟨.inl ⟨_, by omega, rfl⟩, .inl ⟨_, by omega, rfl⟩, .inl ⟨_, by omega, rfl⟩,
      .inl ⟨_, by omega, rfl⟩, ih⟩
  | case2 a b =>
    have := a.toNat_lt
    have := b.toNat_lt
    simp only [encode, List.forall_mem_cons]
    exact ⟨.inl ⟨_, by omega, rfl⟩, .inl ⟨_, by omega, rfl⟩, .inl ⟨_, by omega, rfl⟩, .inr trivial,
      fun _ none => absurd none List.not_mem_nil⟩
  | case3 a =>
    have := a.toNat_lt
    simp only [encode, List.forall_mem_cons]
    exact ⟨.inl ⟨_, by omega, rfl⟩, .inl ⟨_, by omega, rfl⟩, .inr trivial, .inr trivial,
      fun _ none => absurd none List.not_mem_nil⟩
  | case4 => exact fun _ none => absurd none List.not_mem_nil

theorem encode_head (bytes : List UInt8) : (encode bytes).head? ≠ some pad := by
  have differs : ∀ byte : UInt8, symbol (byte.toNat / 4) ≠ pad := by
    intro byte
    have := byte.toNat_lt
    exact symbol_ne_pad (by omega)
  induction bytes using encode.induct with
  | case1 a b c rest ih => simp [encode, differs]
  | case2 a b => simp [encode, differs]
  | case3 a => simp [encode, differs]
  | case4 => simp [encode]

/-- The text of a padded quantum may differ from the one `encode` writes in its last
character before the padding. -/
inductive Respells : List UInt8 → List UInt8 → Prop where
  | same (text : List UInt8) : Respells text text
  | quantum (w x y z : UInt8) {text canonical : List UInt8} (rest : Respells text canonical) :
      Respells (w :: x :: y :: z :: text) (w :: x :: y :: z :: canonical)
  | twoBytes (w x y y' : UInt8) : Respells [w, x, y, pad] [w, x, y', pad]
  | oneByte (w x x' : UInt8) : Respells [w, x, pad, pad] [w, x', pad, pad]

theorem respells_length {text canonical : List UInt8} (respells : Respells text canonical) :
    text.length = canonical.length := by
  induction respells with
  | same text => rfl
  | quantum w x y z rest ih => simp [ih]
  | twoBytes w x y y' => rfl
  | oneByte w x x' => rfl

theorem toNat_first {p q : Nat} (small : p < 64) (tiny : q < 64) :
    (first p q).toNat = p * 4 + q / 16 := by
  rw [first, UInt8.toNat_ofNat']
  omega

theorem toNat_second {q r : Nat} (tiny : r < 64) :
    (second q r).toNat = q % 16 * 16 + r / 4 := by
  rw [second, UInt8.toNat_ofNat']
  omega

theorem toNat_third {r s : Nat} (tiny : s < 64) : (third r s).toNat = r % 4 * 64 + s := by
  rw [third, UInt8.toNat_ofNat']
  omega

theorem decode_respells {text bytes : List UInt8} (decoded : decode text = some bytes) :
    Respells text (encode bytes) := by
  induction text using decode.induct generalizing bytes with
  | case1 =>
    cases decoded
    exact .same []
  | case2 w x y z rest ih =>
    simp only [decode, Option.bind_eq_bind, Option.bind_eq_some_iff] at decoded
    obtain ⟨p, first', q, second', decoded⟩ := decoded
    obtain ⟨rfl, small⟩ := symbol_of_value first'
    obtain ⟨rfl, tiny⟩ := symbol_of_value second'
    have high := toNat_first small tiny
    by_cases padded : y = pad
    · rw [if_pos padded] at decoded
      by_cases last : z = pad ∧ rest = []
      · obtain ⟨rfl, rfl⟩ := last
        subst padded
        rw [if_pos ⟨rfl, rfl⟩] at decoded
        cases decoded
        rw [encode, show (first p q).toNat / 4 = p by omega]
        exact .oneByte _ _ _
      · rw [if_neg last] at decoded
        cases decoded
    · rw [if_neg padded] at decoded
      simp only [Option.bind_eq_some_iff] at decoded
      obtain ⟨r, third', decoded⟩ := decoded
      obtain ⟨rfl, slight⟩ := symbol_of_value third'
      have middle := toNat_second (q := q) slight
      by_cases short : z = pad
      · rw [if_pos short] at decoded
        by_cases last : rest = []
        · rw [if_pos last] at decoded
          subst short last
          cases decoded
          rw [encode, show (first p q).toNat / 4 = p by omega,
            show (first p q).toNat % 4 * 16 + (second q r).toNat / 16 = q by omega]
          exact .twoBytes _ _ _ _
        · rw [if_neg last] at decoded
          cases decoded
      · rw [if_neg short] at decoded
        simp only [Option.bind_eq_some_iff] at decoded
        obtain ⟨s, fourth', later, decodes, decoded⟩ := decoded
        obtain ⟨rfl, faint⟩ := symbol_of_value fourth'
        have low := toNat_third (r := r) faint
        cases decoded
        rw [encode, show (first p q).toNat / 4 = p by omega,
          show (first p q).toNat % 4 * 16 + (second q r).toNat / 16 = q by omega,
          show (second q r).toNat % 16 * 4 + (third r s).toNat / 64 = r by omega,
          show (third r s).toNat % 64 = s by omega]
        exact .quantum _ _ _ _ (ih decodes)
  | case3 text short long =>
    rw [decode] at decoded
    · cases decoded
    · exact short
    · exact long

end Base64
