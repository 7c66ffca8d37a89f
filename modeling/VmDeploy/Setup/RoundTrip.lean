import VmDeploy.Setup.Rereading

/-! Which mappings come back from the text of `_emit_toml`. -/

set_option autoImplicit false

open Toml hiding Text
open Python

namespace VmDeploy.Setup

open Config (valueAt)

section Statement

variable (rt : Runtime)

/-- Equality of values, where tables are dictionaries without an order. -/
inductive SameValue : Value → Value → Prop where
  | refl (value : Value) : SameValue value value
  | table {entries others : Table} (same : ∀ key, Dict.get? entries key = Dict.get? others key) :
      SameValue (.table entries) (.table others)

def SameMapping (read data : Table) : Prop :=
  ∀ key, Option.Rel SameValue (Dict.get? read key) (Dict.get? data key)

def RoundTrips (mapping : Mapping) : Prop :=
  ∃ text read, emission rt mapping.data = some text ∧ loads rt.digitLimit text = some read ∧
    SameMapping read mapping.data

end Statement

section Facts

variable {rt : Runtime} {mapping : Mapping}

theorem mem_iff_get? {table : Table} (distinct : (Dict.keys table).Nodup) {key : String}
    {value : Value} : (key, value) ∈ table ↔ Dict.get? table key = some value := by
  constructor
  · exact fun member => Dict.get?_of_mem distinct member
  · intro found
    obtain ⟨⟨other, same⟩, here, rfl⟩ := Option.map_eq_some_iff.mp found
    have key : other = key := by simpa using List.find?_some here
    subst key
    exact List.mem_of_find?_eq_some here

theorem asEntry_tables (data : Table) :
    (data.filterMap tableOf?).map asEntry = data.filter fun entry => isMapping entry.2 := by
  induction data with
  | nil => rfl
  | cons entry data ih =>
    obtain ⟨name, value⟩ := entry
    cases value with
    | table entries => exact congrArg (List.cons (name, Value.table entries)) ih
    | _ => exact ih

theorem perm_parts (mapping : Mapping) :
    (mapping.scalars ++ mapping.tables.map asEntry).Perm mapping.data := by
  rw [Mapping.tables, asEntry_tables, Mapping.scalars]
  have parts := List.filter_append_perm (fun entry : String × Value => !isMapping entry.2) mapping.data
  simpa using parts

theorem distinct_parts (mapping : Mapping) :
    (Dict.keys (mapping.scalars ++ mapping.tables.map asEntry)).Nodup :=
  ((perm_parts mapping).map Prod.fst).nodup_iff.mpr mapping.distinct

theorem sameMapping_parts (mapping : Mapping) :
    SameMapping (mapping.scalars ++ mapping.tables.map asEntry) mapping.data := by
  intro key
  have same : Dict.get? (mapping.scalars ++ mapping.tables.map asEntry) key =
      Dict.get? mapping.data key := by
    refine Option.ext fun value => ?_
    rw [← mem_iff_get? (distinct_parts mapping), ← mem_iff_get? mapping.distinct]
    exact (perm_parts mapping).mem_iff
  rw [same]
  cases Dict.get? mapping.data key with
  | none => exact .none
  | some value => exact .some (.refl value)

theorem holds_scalar {entry : String × Value} (member : entry ∈ mapping.scalars) :
    mapping.Holds entry.2 :=
  .inl ⟨entry.1, (mem_scalars.mp member).1⟩

theorem holds_table {name : String} {entries : Table} (listed : (name, entries) ∈ mapping.tables)
    {entry : String × Value} (member : entry ∈ entries) : mapping.Holds entry.2 :=
  .inr ⟨name, entries, entry.1, mem_tables.mp listed, member⟩

-- Every scalar is in one of the two parts of the text.
theorem held_in_part {value : Value} (scalar : isScalarValue value = true)
    (held : mapping.Holds value) :
    (∃ key, (key, value) ∈ mapping.scalars) ∨
      ∃ table ∈ mapping.tables, ∃ key, (key, value) ∈ table.2 := by
  rcases held with ⟨key, member⟩ | ⟨name, entries, key, listed, member⟩
  · exact .inl ⟨key, mem_scalars.mpr ⟨member, scalar⟩⟩
  · exact .inr ⟨(name, entries), mem_tables.mpr listed, key, member⟩

theorem emission_some_iff : (∃ text, emission rt mapping.data = some text) ↔
    ∀ value, mapping.Holds (.integer value) → converts rt.digitLimit value.natAbs = true := by
  have all : (∃ text, emission rt mapping.data = some text) ↔
      ∀ entry ∈ mapping.data, renders rt entry.2 = true := by
    rw [emission]
    split
    · next all => simpa using all
    · next some_not => simpa using some_not
  rw [all]
  constructor
  · rintro all value (⟨key, member⟩ | ⟨name, entries, key, listed, member⟩)
    · exact all _ member
    · exact List.all_eq_true.mp (all _ listed) _ member
  · intro converted entry member
    obtain ⟨key, value⟩ := entry
    have single : ∀ value, mapping.Holds value → isScalarValue value = true →
        rendersScalar rt value = true := by
      intro value held scalar
      cases value with
      | integer value => exact converted value held
      | boolean value => rfl
      | string text => rfl
      | _ => cases scalar
    rcases mapping.shallow _ member with scalar | ⟨entries, same, scalars⟩
    · have whole := single value (.inl ⟨key, member⟩) scalar
      cases value with
      | table entries => cases scalar
      | _ => exact whole
    · obtain rfl : value = .table entries := same
      exact List.all_eq_true.mpr fun entry inside =>
        single _ (.inr ⟨key, entries, entry.1, member, inside⟩) (scalars.scalar entry inside)

end Facts

section Reading

variable {rt : Runtime} {mapping : Mapping}

theorem statements_first (header : Key) (out : Output) (tables : List (String × Table)) {left : Nat}
    (room : 0 < left) :
    statements rt.digitLimit left header out (withoutReturns (tablesText rt tables)) =
      statements rt.digitLimit (left + 1) header out (withoutReturns (laterText rt tables)) := by
  cases tables with
  | nil =>
    obtain ⟨fuel, rfl⟩ := Nat.exists_eq_add_one.mpr room
    rfl
  | cons table tables =>
    have text : laterText rt (table :: tables) = '\n' :: tablesText rt (table :: tables) := rfl
    rw [text, withoutReturns_cons (by decide), statements_newline]

theorem distinct_scalars (mapping : Mapping) : (Dict.keys mapping.scalars).Nodup := by
  have distinct := distinct_parts mapping
  rw [keys_append] at distinct
  exact (List.nodup_append'.mp distinct).1

theorem bare_scalars : ∀ entry ∈ mapping.scalars, IsBareKey entry.1 :=
  fun entry member => mapping.bare entry (mem_scalars.mp member).1

theorem bare_tables : ∀ table ∈ mapping.tables, IsBareKey table.1 :=
  fun _ listed => mapping.bare _ (mem_tables.mp listed)

-- Up to the first table. There may be more fuel than the text needs: the overlay has a header.
theorem statements_scalars (readable : ∀ entry ∈ mapping.scalars, Readable rt.digitLimit entry.2)
    {fuel : Nat} (enough : (withoutReturns (mapping.text rt)).length < fuel) :
    ∃ left, (withoutReturns (laterText rt mapping.tables)).length < left ∧
      statements rt.digitLimit fuel [] ⟨[], [], []⟩ (withoutReturns (mapping.text rt)) =
        statements rt.digitLimit left [] ⟨mapping.scalars, [], []⟩
          (withoutReturns (laterText rt mapping.tables)) := by
  have unfrozen : Flags.has [] [] .frozen = false := rfl
  obtain ⟨left, room, run⟩ := statements_entries rt (tablesText rt mapping.tables) [] place_top
    unfrozen bare_scalars readable (distinct_scalars mapping) enough
  refine ⟨left + 1, ?_, ?_⟩
  · cases parts : mapping.tables with
    | nil => exact Nat.succ_pos left
    | cons table tables =>
      have text : laterText rt (table :: tables) = '\n' :: tablesText rt (table :: tables) := rfl
      rw [parts] at room
      rw [text, withoutReturns_cons (by decide), List.length_cons]
      omega
  · rw [← statements_first [] _ _ (by omega)]
    exact run

theorem statements_readable (readable : ∀ value, mapping.Holds value → isScalarValue value = true →
      Readable rt.digitLimit value)
    {fuel : Nat} (enough : (withoutReturns (mapping.text rt)).length < fuel) :
    statements rt.digitLimit fuel [] ⟨[], [], []⟩ (withoutReturns (mapping.text rt)) =
      some (mapping.scalars ++ mapping.tables.map asEntry) := by
  have first : ∀ entry ∈ mapping.scalars, Readable rt.digitLimit entry.2 := fun entry member =>
    readable _ (holds_scalar member) (mem_scalars.mp member).2
  obtain ⟨left, room, run⟩ := statements_scalars first enough
  rw [run]
  refine statements_tables bare_tables (fun _ listed => scalars_of_table listed) ?_ ?_
    (distinct_parts mapping) room
  · intro table listed entry member
    exact readable _ (holds_table listed member) ((scalars_of_table listed).scalar entry member)
  · intro flag none
    cases none

theorem loads_readable (readable : ∀ value, mapping.Holds value → isScalarValue value = true →
      Readable rt.digitLimit value) :
    loads rt.digitLimit (mapping.text rt) =
      some (mapping.scalars ++ mapping.tables.map asEntry) :=
  statements_readable readable (Nat.lt_succ_self _)

theorem readable_or_strange (integers : ∀ value, mapping.Holds (.integer value) →
      converts rt.digitLimit value.natAbs = true)
    (value : Value) (held : mapping.Holds value) (scalar : isScalarValue value = true) :
    Readable rt.digitLimit value ∨ Strange value := by
  cases value with
  | boolean value => exact .inl trivial
  | integer value => exact .inl (integers value held)
  | string text =>
    by_cases plain : ∀ c ∈ text.toList, isPlain c = true
    · exact .inl plain
    · exact .inr ⟨text, rfl, by simpa using plain⟩
  | _ => cases scalar

-- A text that is not plain ends early, has an escape, or is refused: the first one decides.
theorem statements_misread
    (readable : ∀ value, mapping.Holds value → isScalarValue value = true →
      Readable rt.digitLimit value ∨ Strange value)
    {text : String} (held : mapping.Holds (.string text)) (odd : Strange (.string text))
    {fuel : Nat} (enough : (withoutReturns (mapping.text rt)).length < fuel) {read : Table}
    (reads : statements rt.digitLimit fuel [] ⟨[], [], []⟩ (withoutReturns (mapping.text rt)) =
      some read) :
    ∃ path text found, valueAt (.table mapping.data) path = some (.string text) ∧ found ≠ text ∧
      valueAt (.table read) path = some (.string found) := by
  have first : ∀ entry ∈ mapping.scalars, Readable rt.digitLimit entry.2 ∨ Strange entry.2 :=
    fun entry member => readable _ (holds_scalar member) (mem_scalars.mp member).2
  have later : ∀ table ∈ mapping.tables, ∀ entry ∈ table.2,
      Readable rt.digitLimit entry.2 ∨ Strange entry.2 := fun table listed entry member =>
    readable _ (holds_table listed member) ((scalars_of_table listed).scalar entry member)
  by_cases top : ∃ entry ∈ mapping.scalars, Strange entry.2
  · have next : ∀ c ∈ (withoutReturns (tablesText rt mapping.tables)).head?,
        c ≠ '"' ∧ c ≠ '\\' ∧ c ≠ '\r' := by
      cases mapping.tables with
      | nil => simp [tablesText, laterText, withoutReturns]
      | cons table tables =>
        have text : tablesText rt (table :: tables) =
            headerText table.1 (entriesText rt table.2 (laterText rt tables)) := rfl
        rw [text, headerText, withoutReturns_cons (by decide)]
        simp
    have unfrozen : Flags.has [] [] .frozen = false := rfl
    obtain ⟨key, text, found, member, differs, set⟩ := statements_entries_strange [] place_top
      unfrozen bare_scalars first top (distinct_scalars mapping) next reads
    refine ⟨[key], text, found, ?_, differs, set⟩
    rw [valueAt_single]
    exact (mem_iff_get? mapping.distinct).mp (mem_scalars.mp member).1
  · have plain : ∀ entry ∈ mapping.scalars, Readable rt.digitLimit entry.2 := fun entry member =>
      (first entry member).resolve_right fun strange => top ⟨entry, member, strange⟩
    have beyond : ∃ table ∈ mapping.tables, ∃ entry ∈ table.2, Strange entry.2 := by
      rcases held_in_part rfl held with ⟨key, member⟩ | ⟨table, listed, key, member⟩
      · exact absurd ⟨(key, .string text), member, odd⟩ top
      · exact ⟨table, listed, (key, .string text), member, odd⟩
    obtain ⟨left, room, run⟩ := statements_scalars plain enough
    rw [run] at reads
    have none : Declared (Dict.keys mapping.scalars) [] := by
      intro flag none
      cases none
    obtain ⟨name, entries, key, text, found, listed, member, differs, set⟩ :=
      statements_tables_strange bare_tables (fun _ listed => scalars_of_table listed) later beyond
        none (distinct_parts mapping) room reads
    refine ⟨[name, key], text, found, ?_, differs, set⟩
    rw [Config.valueAt_cons [key] ((mem_iff_get? mapping.distinct).mp (mem_tables.mp listed)),
      valueAt_single]
    exact (mem_iff_get? (scalars_of_table listed).distinct).mp member

theorem SameMapping.string {read data : Table} (same : SameMapping read data) {path : Key}
    {text : String} (there : valueAt (.table read) path = some (.string text)) :
    valueAt (.table data) path = some (.string text) := by
  cases path with
  | nil => cases there
  | cons key rest =>
    obtain ⟨value, found, leads, -⟩ := Config.string_set there
    have here := same key
    rw [found] at here
    cases known : Dict.get? data key with
    | none =>
      rw [known] at here
      cases here
    | some other =>
      rw [known] at here
      rw [Config.valueAt_cons rest known]
      cases here with
      | some alike =>
        cases alike with
        | refl => exact leads
        | table same =>
          cases rest with
          | nil => cases leads
          | cons next rest =>
            rw [valueAt, same next] at leads
            rwa [valueAt]

theorem emission_text {text : Text} (emitted : emission rt mapping.data = some text) :
    (mapping.data = [] ∧ text = ['\n']) ∨ text = mapping.text rt := by
  rw [emission] at emitted
  split at emitted
  · have same := Option.some.inj emitted
    rw [← same]
    by_cases none : mapping.data = []
    · exact .inl ⟨none, by rw [none, emitToml_empty]⟩
    · exact .inr (emitToml_text none)
  · cases emitted

theorem plain_iff {c : Char} : isPlain c = true ↔
    c ≠ '"' ∧ c ≠ '\\' ∧ (c.toNat < 0x20 ∨ c.toNat = 0x7F → c = '\t') := by
  rw [isPlain_iff, isIllegal]
  refine and_congr_right fun _ => and_congr_right fun _ => ?_
  by_cases tab : c = '\t'
  · simp [tab]
  · simp [tab]

/-- Exactly the mappings come back whose texts need no escape and whose integers are converted. -/
theorem roundTrips_iff (rt : Runtime) (mapping : Mapping) :
    RoundTrips rt mapping ↔
      (∀ text, mapping.Holds (.string text) → ∀ c ∈ text.toList,
        c ≠ '"' ∧ c ≠ '\\' ∧ (c.toNat < 0x20 ∨ c.toNat = 0x7F → c = '\t')) ∧
      ∀ value, mapping.Holds (.integer value) → converts rt.digitLimit value.natAbs = true := by
  constructor
  · rintro ⟨written, read, emitted, reads, same⟩
    have integers := emission_some_iff.mp ⟨written, emitted⟩
    refine ⟨fun text held c member => ?_, integers⟩
    rw [← plain_iff]
    by_contra odd
    rcases emission_text emitted with ⟨none, -⟩ | rfl
    · rcases held with ⟨key, member⟩ | ⟨name, entries, key, listed, member⟩
      · simp [none] at member
      · simp [none] at listed
    · obtain ⟨path, text, found, there, differs, set⟩ := statements_misread
        (readable_or_strange integers) held ⟨_, rfl, c, member, by simpa using odd⟩
        (Nat.lt_succ_self _) reads
      cases there.symm.trans (same.string set)
      exact differs rfl
  · rintro ⟨texts, integers⟩
    have readable : ∀ value, mapping.Holds value → isScalarValue value = true →
        Readable rt.digitLimit value := by
      intro value held scalar
      cases value with
      | boolean value => trivial
      | integer value => exact integers value held
      | string text => exact fun c member => plain_iff.mpr (texts text held c member)
      | _ => cases scalar
    obtain ⟨text, emitted⟩ := emission_some_iff.mpr integers
    rcases emission_text emitted with ⟨none, rfl⟩ | rfl
    · refine ⟨_, [], emitted, rfl, fun key => ?_⟩
      rw [none]
      exact .none
    · exact ⟨_, _, emitted, loads_readable readable, sameMapping_parts mapping⟩

end Reading

def limitedRuntime (digitLimit : Nat) : Runtime where
  privatePem := fun seed => seed
  publicText := fun _ => "ssh-ed25519 AAAA"
  str := fun _ => none
  dict := fun _ => .ok []
  digitLimit := some digitLimit
  encodeError := fun _ => ""
  decodeError := fun _ => ""
  tomlFault := fun _ => .decodeError ""

theorem lt_pow_digits (n : Nat) : n < Nat.pow 10 (decimalDigits n).length := by
  induction n using Nat.strongRecOn with
  | _ n ih =>
    rw [decimalDigits_eq, Nat.toDigits_eq_if (by omega)]
    split
    · exact ‹n < 10›
    · have shorter := ih (n / 10) (by omega)
      rw [decimalDigits_eq] at shorter
      have longer : Nat.pow 10 ((Nat.toDigits 10 (n / 10)).length + 1) =
          Nat.pow 10 (Nat.toDigits 10 (n / 10)).length * 10 := rfl
      rw [List.length_append, List.length_singleton, longer]
      omega

def singleInteger (n : Nat) : Mapping where
  data := [("n", .integer n)]
  distinct := by simp [Dict.keys]
  bare := by
    intro entry member
    rw [List.mem_singleton.mp member]
    exact ⟨show "n" ≠ "" by decide, show ∀ c ∈ "n".toList, isBareKeyChar c = true by simp [isBareKeyChar]⟩
  shallow := by
    intro entry member
    rw [List.mem_singleton.mp member]
    exact .inl rfl

theorem singleInteger_lost {digitLimit n : Nat} (long : Nat.pow 10 digitLimit ≤ n) :
    ¬ RoundTrips (limitedRuntime digitLimit) (singleInteger n) := by
  rintro ⟨text, read, emitted, -, -⟩
  have converted := emission_some_iff.mp ⟨text, emitted⟩ n (.inl ⟨"n", List.mem_cons_self⟩)
  have short : (decimalDigits n).length ≤ digitLimit := of_decide_eq_true converted
  have small := lt_pow_digits n
  have power : Nat.pow 10 (decimalDigits n).length ≤ Nat.pow 10 digitLimit :=
    Nat.pow_le_pow_right (by decide) short
  omega

theorem singleInteger_silent {n : Nat} {text : String} :
    ¬ (singleInteger n).Holds (.string text) := by
  rintro (⟨key, member⟩ | ⟨name, entries, key, listed, -⟩)
  · cases List.mem_singleton.mp member
  · cases List.mem_singleton.mp listed

/-- Without any text, a mapping may fail to come back: an interpreter as it is installed converts
integers of up to 4300 digits. -/
theorem long_integer_lost : ¬ ∀ (rt : Runtime) (mapping : Mapping), RoundTrips rt mapping ↔
    ∀ text, mapping.Holds (.string text) → ∀ c ∈ text.toList,
      c ≠ '"' ∧ c ≠ '\\' ∧ (c.toNat < 0x20 ∨ c.toNat = 0x7F → c = '\t') := by
  intro claimed
  refine singleInteger_lost (Nat.le_refl (Nat.pow 10 4300)) ((claimed _ _).mpr ?_)
  exact fun text held => absurd held singleInteger_silent

end VmDeploy.Setup
