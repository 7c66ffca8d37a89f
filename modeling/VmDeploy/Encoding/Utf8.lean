import Mathlib.Data.List.Basic

/-! UTF-8 read from lists of bytes, strictly or with a replacement for every byte that
begins no character. -/

set_option autoImplicit false

namespace Utf8

def encode (text : List Char) : List UInt8 :=
  text.flatMap String.utf8EncodeChar

/-- The character whose encoding the bytes begin with. -/
def rune? (bytes : List UInt8) : Option Char :=
  bytes.toByteArray.utf8DecodeChar? 0

/-- After skipping some bytes, cut the rest into encoded characters and single bytes
that begin none. -/
def cut : Nat → List UInt8 → List (Option Char × List UInt8)
  | _, [] => []
  | skip + 1, _ :: rest => cut skip rest
  | 0, byte :: rest =>
      match rune? (byte :: rest) with
      | some c => (some c, (byte :: rest).take c.utf8Size) :: cut (c.utf8Size - 1) rest
      | none => (none, [byte]) :: cut 0 rest

def replacement : Char := '\uFFFD'

def lossy (bytes : List UInt8) : List Char :=
  (cut 0 bytes).map fun piece => piece.1.getD replacement

def strict (bytes : List UInt8) : Option (List Char) :=
  (cut 0 bytes).mapM Prod.fst

theorem rune_encodeChar (c : Char) (rest : List UInt8) :
    rune? (String.utf8EncodeChar c ++ rest) = some c := by
  rw [rune?, List.toByteArray_append]
  exact ByteArray.utf8DecodeChar?_utf8EncodeChar_append

theorem cut_skip (bytes rest : List UInt8) : cut bytes.length (bytes ++ rest) = cut 0 rest := by
  induction bytes with
  | nil => rfl
  | cons byte bytes ih => exact ih

theorem cut_encodeChar (c : Char) (rest : List UInt8) :
    cut 0 (String.utf8EncodeChar c ++ rest) = (some c, String.utf8EncodeChar c) :: cut 0 rest := by
  have size := String.length_utf8EncodeChar c
  have begins := rune_encodeChar c rest
  have skips := fun bytes => cut_skip bytes rest
  cases encoded : String.utf8EncodeChar c with
  | nil =>
    have positive := c.utf8Size_pos
    rw [encoded] at size
    simp only [List.length_nil] at size
    omega
  | cons byte bytes =>
    rw [encoded] at size begins
    rw [List.cons_append] at begins ⊢
    have whole : (byte :: (bytes ++ rest)).take c.utf8Size = byte :: bytes := by
      rw [← size, ← List.cons_append, List.take_left]
    have tail : c.utf8Size - 1 = bytes.length := by rw [← size, List.length_cons]; omega
    simp only [cut, begins]
    rw [whole, tail, skips]

theorem cut_encode (text : List Char) :
    cut 0 (encode text) = text.map fun c => (some c, String.utf8EncodeChar c) := by
  induction text with
  | nil => rfl
  | cons c text ih =>
    change cut 0 (String.utf8EncodeChar c ++ encode text) = _
    rw [cut_encodeChar, ih]
    rfl

theorem strict_encode (text : List Char) : strict (encode text) = some text := by
  rw [strict, cut_encode, List.mapM_map]
  induction text with
  | nil => rfl
  | cons c text ih =>
    rw [List.mapM_cons, ih]
    rfl

-- Nothing is replaced in a text that reads strictly.
theorem lossy_of_strict {bytes : List UInt8} {text : List Char} (reads : strict bytes = some text) :
    lossy bytes = text := by
  unfold strict at reads
  unfold lossy
  generalize cut 0 bytes = pieces at reads ⊢
  induction pieces generalizing text with
  | nil =>
    cases reads
    rfl
  | cons piece pieces ih =>
    rw [List.mapM_cons] at reads
    simp only [Option.bind_eq_bind, Option.bind_eq_some_iff, Option.pure_def] at reads
    obtain ⟨c, known, later, rest, same⟩ := reads
    cases same
    rw [List.map_cons, known, ih rest]
    rfl

theorem lossy_encode (text : List Char) : lossy (encode text) = text :=
  lossy_of_strict (strict_encode text)

theorem encodeChar_rune {bytes : List UInt8} {c : Char} (begins : rune? bytes = some c) :
    String.utf8EncodeChar c <+: bytes := by
  obtain ⟨rest, same⟩ := ByteArray.exists_of_utf8DecodeChar?_eq_some begins
  refine ⟨rest.data.toList, ?_⟩
  have lists := congrArg (fun array => array.data.toList) same
  simpa using lists.symm

theorem rune_append {bytes : List UInt8} {c : Char} (begins : rune? bytes = some c)
    (rest : List UInt8) : rune? (bytes ++ rest) = some c := by
  rw [rune?, List.toByteArray_append]
  exact ByteArray.utf8DecodeChar?_append_eq_some begins _

-- Every byte of a character after its first is a continuation byte.
theorem tail_high (c : Char) : ∀ byte ∈ (String.utf8EncodeChar c).tail, 0x80 ≤ byte.toNat := by
  have high : ∀ n, 0x80 ≤ (UInt8.ofNat (n % 64 + 128)).toNat := by
    intro n
    rw [UInt8.toNat_ofNat']
    omega
  intro byte member
  unfold String.utf8EncodeChar at member
  simp only [] at member
  split at member
  · simp at member
  · split at member
    · simp only [List.tail_cons, List.mem_singleton] at member
      exact member ▸ high _
    · split at member
      · simp only [List.tail_cons, List.mem_cons, List.not_mem_nil, or_false] at member
        rcases member with rfl | rfl <;> exact high _
      · simp only [List.tail_cons, List.mem_cons, List.not_mem_nil, or_false] at member
        rcases member with rfl | rfl | rfl <;> exact high _

-- ASCII text after some bytes completes no character that they begin.
theorem rune_append_ascii {bytes line : List UInt8} (some_bytes : bytes ≠ [])
    (ascii : ∀ byte ∈ line, byte.toNat < 0x80) : rune? (bytes ++ line) = rune? bytes := by
  cases begins : rune? bytes with
  | some c => exact rune_append begins line
  | none =>
    cases longer : rune? (bytes ++ line) with
    | none => rfl
    | some c =>
      have whole := encodeChar_rune longer
      rcases List.prefix_or_prefix_of_prefix whole (List.prefix_append bytes line) with short | long
      · obtain ⟨rest, rfl⟩ := short
        rw [rune_encodeChar] at begins
        cases begins
      · obtain ⟨first, same⟩ := long
        rw [← same, List.prefix_append_right_inj] at whole
        cases first with
        | nil =>
          rw [List.append_nil] at same
          rw [same, ← List.append_nil (String.utf8EncodeChar c), rune_encodeChar] at begins
          cases begins
        | cons byte first =>
          obtain ⟨start, rest, rfl⟩ := List.exists_cons_of_ne_nil some_bytes
          have low := ascii byte (whole.subset List.mem_cons_self)
          have high := tail_high c byte (by rw [← same]; simp)
          omega

theorem cut_append_ascii {line : List UInt8} (ascii : ∀ byte ∈ line, byte.toNat < 0x80)
    (bytes : List UInt8) {skip : Nat} (within : skip ≤ bytes.length) :
    cut skip (bytes ++ line) = cut skip bytes ++ cut 0 line := by
  induction bytes generalizing skip with
  | nil =>
    obtain rfl : skip = 0 := by simpa using within
    rfl
  | cons byte rest ih =>
    cases skip with
    | succ skip => exact ih (by simpa using within)
    | zero =>
      have same := rune_append_ascii (List.cons_ne_nil byte rest) ascii
      rw [List.cons_append] at same ⊢
      rw [cut, cut, same]
      cases begins : rune? (byte :: rest) with
      | none => simp [ih]
      | some c =>
        have size := (encodeChar_rune begins).length_le
        rw [String.length_utf8EncodeChar, List.length_cons] at size
        have kept : (byte :: rest ++ line).take c.utf8Size = (byte :: rest).take c.utf8Size :=
          List.take_append_of_le_length size
        simp only [ih (show c.utf8Size - 1 ≤ rest.length by omega), List.cons_append] at kept ⊢
        rw [kept]

-- ASCII text behind any bytes is read as it is, and changes nothing in front of it.
theorem lossy_append_ascii (bytes : List UInt8) {line : List UInt8}
    (ascii : ∀ byte ∈ line, byte.toNat < 0x80) : lossy (bytes ++ line) = lossy bytes ++ lossy line := by
  rw [lossy, cut_append_ascii ascii bytes (Nat.zero_le _), List.map_append]
  rfl

theorem encode_ascii {text : List Char} (ascii : ∀ c ∈ text, c.toNat < 0x80) :
    encode text = text.map fun c => UInt8.ofNat c.toNat := by
  induction text with
  | nil => rfl
  | cons c text ih =>
    have small : c.val.toNat ≤ 0x7f := Nat.le_of_lt_succ (ascii c List.mem_cons_self)
    have first : String.utf8EncodeChar c = [UInt8.ofNat c.toNat] := if_pos small
    have rest := ih fun other member => ascii other (List.mem_cons_of_mem c member)
    rw [encode, List.flatMap_cons, first, ← encode, rest]
    rfl

end Utf8
