import VmDeploy.Encoding.TomlScalars

/-! The lines of a document whose keys need no quotation marks. -/

set_option autoImplicit false

open Python

namespace Toml

def IsBareKey (key : String) : Prop :=
  key ≠ "" ∧ ∀ c ∈ key.toList, isBareKeyChar c = true

theorem bare_ne {c d : Char} (bare : isBareKeyChar c = true) (other : isBareKeyChar d = false) :
    c ≠ d := by
  rintro rfl
  rw [bare] at other
  cases other

theorem not_blank_of_bare {c : Char} (bare : isBareKeyChar c = true) : isBlank c = false := by
  simp [isBlank, bare_ne bare (d := ' ') (by decide), bare_ne bare (d := '\t') (by decide)]

theorem IsBareKey.cons {key : String} (bare : IsBareKey key) :
    ∃ c rest, key.toList = c :: rest ∧ isBareKeyChar c = true := by
  cases chars : key.toList with
  | nil => exact absurd (String.toList_eq_nil_iff.mp chars) bare.1
  | cons c rest => exact ⟨c, rest, rfl, bare.2 c (by simp [chars])⟩

section Keys

variable {key : String} {c d : Char} {rest rest' : Toml.Text}

theorem keyPart_bare (bare : IsBareKey key) (ends : isBareKeyChar c = false) :
    keyPart (key.toList ++ c :: rest) = some (key, c :: rest) := by
  obtain ⟨first, others, chars, here⟩ := bare.cons
  have taken : (key.toList ++ c :: rest).takeWhile isBareKeyChar = key.toList := by
    rw [List.takeWhile_append_of_pos bare.2, List.takeWhile_cons_of_neg (by simp [ends]),
      List.append_nil]
  have left : (key.toList ++ c :: rest).dropWhile isBareKeyChar = c :: rest := by
    rw [List.dropWhile_append_of_pos bare.2, List.dropWhile_cons_of_neg (by simp [ends])]
  have same : String.ofList (first :: others) = key := by rw [← chars, String.ofList_toList]
  rw [chars] at taken left ⊢
  rw [List.cons_append] at taken left ⊢
  rw [keyPart]
  · simp only [taken, left, same]
  · intro rest quote
    exact bare_ne here (d := '"') (by decide) (List.cons.inj quote).1
  · intro rest quote
    exact bare_ne here (d := '\'') (by decide) (List.cons.inj quote).1

theorem readKey_bare (bare : IsBareKey key) (ends : isBareKeyChar c = false)
    (skips : skipBlanks (c :: rest) = d :: rest') (single : d ≠ '.') (parts : Nat) :
    readKey (parts + 1) (key.toList ++ c :: rest) = some ([key], d :: rest') := by
  rw [readKey, keyPart_bare bare ends]
  simp only [Option.bind_eq_bind, Option.bind_some, skips]
  split
  · next dot => exact absurd (List.cons.inj dot).1 single
  · rfl

end Keys

section Lines

variable {digitLimit : Option Nat} {key : String} {header : Key} {out : Output} {text more : Toml.Text}

def entryText (key : String) (text : Toml.Text) : Toml.Text :=
  key.toList ++ ' ' :: '=' :: ' ' :: text

def headerText (name : String) (more : Toml.Text) : Toml.Text :=
  '[' :: (name.toList ++ ']' :: '\n' :: more)

theorem skipBlanks_visible (starts : ∀ c ∈ text.head?, isBlank c = false) :
    skipBlanks text = text := by
  cases text with
  | nil => rfl
  | cons c text => exact List.dropWhile_cons_of_neg (by simp [starts c rfl])

theorem keyValue_bare (digitLimit : Option Nat) (out : Output) (bare : IsBareKey key) (starts : ∀ c ∈ text.head?, isBlank c = false)
    (unfrozen : out.flags.has header .frozen = false) :
    ∃ fuel, keyValue digitLimit header out (entryText key text) =
      (readValue digitLimit (fuel + 1) text).bind fun read =>
        (addEntry true header key read.1 out.data).map fun data =>
          (⟨data, if read.1.isNest then ⟨header ++ [key], .frozen, true⟩ :: out.flags
            else out.flags, out.pending⟩, read.2) := by
  obtain ⟨fuel, size⟩ : ∃ fuel, (entryText key text).length = fuel + 1 :=
    Nat.exists_eq_add_one.mpr (by simp only [entryText, List.length_append, List.length_cons]; omega)
  refine ⟨fuel, ?_⟩
  have keys : readKey (fuel + 1) (entryText key text) = some ([key], '=' :: ' ' :: text) :=
    readKey_bare bare (by decide) (by simp [skipBlanks, isBlank]) (by decide) fuel
  have value : skipBlanks (' ' :: text) = text := by
    rw [skipBlanks, List.dropWhile_cons_of_pos (by decide)]
    exact skipBlanks_visible starts
  simp only [keyValue, size, keys, char?, value, Option.bind_eq_bind, Option.bind_some, if_true,
    List.length_singleton, Nat.sub_self, List.range_zero, List.map_nil, List.any_nil,
    List.dropLast_singleton, List.append_nil, List.getLastD_cons, List.getLastD_nil, unfrozen,
    Bool.false_eq_true, if_false, List.nil_append]
  cases readValue digitLimit (fuel + 1) text with
  | none => rfl
  | some read =>
    simp only [Option.bind_some]
    cases addEntry true header key read.1 out.data <;> rfl

theorem statement_bare (digitLimit : Option Nat) (header : Key) (out : Output) (text : Toml.Text)
    (bare : IsBareKey key) :
    statement digitLimit header out (entryText key text) =
      (keyValue digitLimit header out (entryText key text)).map fun read =>
        (header, read.1, read.2) := by
  obtain ⟨first, others, chars, here⟩ := bare.cons
  rw [entryText, chars, List.cons_append, statement]
  · simp only [here, Bool.true_or, if_true]
    cases keyValue digitLimit header out (first :: (others ++ ' ' :: '=' :: ' ' :: text)) <;> rfl
  · exact fun rest bracket => absurd bracket (bare_ne here (by decide))
  · exact bare_ne here (by decide)
  · exact bare_ne here (by decide)

theorem statements_newline (fuel : Nat) :
    statements digitLimit (fuel + 1) header out ('\n' :: more) =
      statements digitLimit fuel header out more := by
  have visible : skipBlanks ('\n' :: more) = '\n' :: more := skipBlanks_visible (by simp [isBlank])
  rw [statements, visible]
  rfl

-- A statement that ends its line leaves the lines below.
theorem statements_line {header' : Key} {out' : Output} {c : Char} (blank : isBlank c = false)
    (inner : c ≠ '\n') (fuel : Nat)
    (read : statement digitLimit header out (c :: text) = some (header', out', '\n' :: more)) :
    statements digitLimit (fuel + 1) header out (c :: text) =
      statements digitLimit fuel header' out' more := by
  have visible : skipBlanks (c :: text) = c :: text := skipBlanks_visible (by simp [blank])
  have newline : skipBlanks ('\n' :: more) = '\n' :: more := skipBlanks_visible (by simp [isBlank])
  rw [statements, visible]
  split
  · next none => cases none
  · next same => exact absurd (List.cons.inj same).1 inner
  · simp only [read, Option.bind_eq_bind, Option.bind_some, newline]
    rfl

-- A document that is read is read by its first statement and the rest.
theorem statements_read {fuel : Nat} {c : Char} {document : Table} (blank : isBlank c = false)
    (inner : c ≠ '\n')
    (read : statements digitLimit (fuel + 1) header out (c :: text) = some document) :
    ∃ header' out' rest, statement digitLimit header out (c :: text) = some (header', out', rest) ∧
      (document = out'.data ∨ ∃ more, statements digitLimit fuel header' out' more = some document) := by
  have visible : skipBlanks (c :: text) = c :: text := skipBlanks_visible (by simp [blank])
  rw [statements, visible] at read
  split at read
  · next none => cases none
  · next same => exact absurd (List.cons.inj same).1 inner
  · obtain ⟨⟨header', out', rest⟩, steps, read⟩ := Option.bind_eq_some_iff.mp read
    refine ⟨header', out', rest, steps, ?_⟩
    obtain ⟨left, -, read⟩ := Option.bind_eq_some_iff.mp read
    split at read
    · exact .inl (Option.some.inj read).symm
    · exact .inr ⟨_, read⟩
    · cases read

theorem statement_header {name : String} (bare : IsBareKey name)
    (fresh : Dict.get? out.data name = none)
    (undeclared : ∀ kind, out.finalizePending.flags.has [name] kind = false) :
    statement digitLimit header out (headerText name more) =
      some ([name], { out.finalizePending with
        data := Dict.assign out.data name (.table [])
        flags := ⟨[name], .explicitNest, false⟩ :: out.finalizePending.flags }, '\n' :: more) := by
  obtain ⟨first, others, chars, here⟩ := bare.cons
  obtain ⟨fuel, size⟩ : ∃ fuel, (name.toList ++ ']' :: '\n' :: more).length = fuel + 1 :=
    Nat.exists_eq_add_one.mpr (by simp only [List.length_append, List.length_cons]; omega)
  have keys : readKey (fuel + 1) (name.toList ++ ']' :: '\n' :: more) =
      some ([name], ']' :: '\n' :: more) :=
    readKey_bare bare (by decide) (by simp [skipBlanks, isBlank]) (by decide) fuel
  have visible : skipBlanks (name.toList ++ ']' :: '\n' :: more) =
      name.toList ++ ']' :: '\n' :: more :=
    skipBlanks_visible (by simp [chars, not_blank_of_bare here])
  have single : statement digitLimit header out (headerText name more) =
      createTable out.finalizePending (name.toList ++ ']' :: '\n' :: more) := by
    rw [headerText, statement]
    intro rest bracket
    rw [chars] at bracket
    exact bare_ne here (d := '[') (by decide) (List.cons.inj bracket).1
  have created : updateNest true [name] some out.data =
      some (Dict.assign out.data name (.table [])) := by
    simp [updateNest, fresh]
  have kept : out.finalizePending.data = out.data := rfl
  rw [single, createTable, visible, size, keys]
  simp [undeclared, kept, created, char?]

end Lines

end Toml
