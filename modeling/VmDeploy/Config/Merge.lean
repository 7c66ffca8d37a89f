import VmDeploy.Config.Valid

/-! `_deep_merge` of `config.py`, by the paths of the two documents. -/

set_option autoImplicit false

open Python Toml

namespace VmDeploy.Config

def isTable : Value → Bool
  | .table _ => true
  | _ => false

def valueAt (value : Value) : List String → Option Value
  | [] => some value
  | key :: rest =>
      match value with
      | .table entries => (Dict.get? entries key).bind fun inner => valueAt inner rest
      | _ => none

def leafAt (value : Value) (path : List String) : Option Value :=
  (valueAt value path).filter fun found => !isTable found

/-- Something that is not a table stands on the way to the path. -/
def Blocks (value : Value) (path : List String) : Prop :=
  ∃ front, front <+: path ∧ front ≠ path ∧ (leafAt value front).isSome

def Keyed (value : Value) : Prop :=
  ∀ path inner, valueAt value path = some (.table inner) → (Dict.keys inner).Nodup

/-- A parsed document. -/
structure Document where
  entries : Table
  keyed : Keyed (.table entries)

def Document.value (document : Document) : Value :=
  .table document.entries

section Lookup

variable {entries : Table} {key : String} {rest : List String} {value : Value}

theorem valueAt_cons (rest : List String) (here : Dict.get? entries key = some value) :
    valueAt (.table entries) (key :: rest) = valueAt value rest := by
  rw [valueAt, here, Option.bind_some]

theorem valueAt_absent (rest : List String) (absent : Dict.get? entries key = none) :
    valueAt (.table entries) (key :: rest) = none := by
  rw [valueAt, absent, Option.bind_none]

theorem valueAt_beyond (key : String) (rest : List String) (single : isTable value = false) :
    valueAt value (key :: rest) = none := by
  cases value with
  | table entries => cases single
  | _ => rfl

theorem keyed_inner (keyed : Keyed (.table entries)) (here : Dict.get? entries key = some value) :
    Keyed value :=
  fun path inner found => keyed (key :: path) inner ((valueAt_cons path here).trans found)

theorem blocks_cons (here : Dict.get? entries key = some value) :
    Blocks (.table entries) (key :: rest) ↔ Blocks value rest := by
  constructor
  · rintro ⟨front, starts, proper, leaf⟩
    cases front with
    | nil => cases leaf
    | cons first front =>
      obtain ⟨rfl, later⟩ := List.cons_prefix_cons.mp starts
      rw [leafAt, valueAt_cons _ here] at leaf
      exact ⟨front, later, fun same => proper (by rw [same]), leaf⟩
  · rintro ⟨front, starts, proper, leaf⟩
    refine ⟨key :: front, List.cons_prefix_cons.mpr ⟨rfl, starts⟩, ?_, ?_⟩
    · exact fun same => proper (List.cons.inj same).2
    · rwa [leafAt, valueAt_cons _ here]

theorem not_blocks_absent (absent : Dict.get? entries key = none) :
    ¬ Blocks (.table entries) (key :: rest) := by
  rintro ⟨front, starts, proper, leaf⟩
  cases front with
  | nil => cases leaf
  | cons first front =>
    obtain ⟨rfl, starts⟩ := List.cons_prefix_cons.mp starts
    rw [leafAt, valueAt_absent _ absent] at leaf
    cases leaf

theorem blocks_beyond (key : String) (rest : List String) (single : isTable value = false) :
    Blocks value (key :: rest) := by
  refine ⟨[], List.nil_prefix, List.cons_ne_nil key rest |>.symm, ?_⟩
  simp [leafAt, valueAt, single]

end Lookup

theorem mergeValue_single {value : Value} (single : isTable value = false)
    (existing : Option Value) : mergeValue existing value = value := by
  cases value with
  | table entries => cases single
  | _ => rfl

theorem mergeValue_none (value : Value) : mergeValue none value = value := by
  cases value <;> rfl

theorem isTable_mergeValue (existing : Option Value) (entries : Table) :
    isTable (mergeValue existing (.table entries)) = true := by
  cases existing with
  | none => rfl
  | some before => cases before <;> rfl

/-- What a merge has at a path, by what the overlay has there. -/
structure Merges (existing : Option Value) (overlay merged : Value) (path : List String) : Prop where
  leaf : ∀ value, leafAt overlay path = some value → valueAt merged path = some value
  table : ∀ inner, valueAt overlay path = some (.table inner) →
    ∃ value, valueAt merged path = some value ∧ isTable value = true
  blocked : Blocks overlay path → valueAt merged path = none
  free : valueAt overlay path = none → ¬ Blocks overlay path →
    valueAt merged path = existing.bind fun value => valueAt value path

-- What a merge has under a key, whether or not there was a table to merge into.
theorem merged_under {entries : Table} (unique : (Dict.keys entries).Nodup)
    (existing : Option Value) (key : String) (rest : List String) :
    ∃ before : Option Value,
      valueAt (mergeValue existing (.table entries)) (key :: rest) =
        (((Dict.get? entries key).map (mergeValue before)).or before).bind (valueAt · rest) ∧
      (existing.bind (valueAt · (key :: rest))) = before.bind (valueAt · rest) ∧
      ∀ value, before = some value → ∃ table, existing = some (.table table) ∧
        Dict.get? table key = some value := by
  have alone : Option.map (mergeValue none) (Dict.get? entries key) = Dict.get? entries key := by
    cases Dict.get? entries key with
    | none => rfl
    | some value => rw [Option.map_some, mergeValue_none]
  have fresh : ∀ existing, mergeValue existing (.table entries) = .table entries →
      valueAt (mergeValue existing (.table entries)) (key :: rest) =
        (((Dict.get? entries key).map (mergeValue none)).or none).bind (valueAt · rest) := by
    intro existing same
    rw [same, alone, Option.or_none]
    rfl
  cases existing with
  | none => exact ⟨none, fresh none rfl, rfl, by simp⟩
  | some value =>
    cases value with
    | table before =>
      refine ⟨Dict.get? before key, ?_, rfl, fun value here => ⟨before, rfl, here⟩⟩
      rw [← get?_deepMerge before unique]
      rfl
    | _ => exact ⟨none, fresh _ rfl, rfl, by simp⟩

theorem merges_mergeValue {overlay : Value} (keyed : Keyed overlay) (existing : Option Value)
    (path : List String) : Merges existing overlay (mergeValue existing overlay) path := by
  induction path generalizing overlay existing with
  | nil =>
    have never : ¬ Blocks overlay [] := by
      rintro ⟨front, starts, proper, -⟩
      exact proper (List.prefix_nil.mp starts)
    constructor
    · intro value leaf
      obtain ⟨here, single⟩ := Option.filter_eq_some_iff.mp leaf
      obtain rfl : overlay = value := Option.some.inj here
      rw [valueAt, mergeValue_single (by simpa using single)]
    · intro inner here
      obtain rfl : overlay = .table inner := Option.some.inj here
      exact ⟨_, rfl, isTable_mergeValue existing inner⟩
    · exact fun blocks => absurd blocks never
    · intro none
      cases none
  | cons key rest ih =>
    cases shape : isTable overlay with
    | false =>
      have beyond := valueAt_beyond key rest shape
      have blocks := blocks_beyond key rest shape
      constructor
      · intro value leaf
        rw [leafAt, beyond] at leaf
        cases leaf
      · intro inner here
        rw [beyond] at here
        cases here
      · intro _
        rw [mergeValue_single shape, beyond]
      · exact fun _ free => absurd blocks free
    | true =>
      obtain ⟨entries, rfl⟩ : ∃ entries, overlay = .table entries := by
        cases overlay with
        | table entries => exact ⟨entries, rfl⟩
        | _ => cases shape
      have unique : (Dict.keys entries).Nodup := keyed [] entries rfl
      obtain ⟨before, merged, based, -⟩ := merged_under unique existing key rest
      cases here : Dict.get? entries key with
      | none =>
        have absent := valueAt_absent rest here
        constructor
        · intro value leaf
          rw [leafAt, absent] at leaf
          cases leaf
        · intro inner found
          rw [absent] at found
          cases found
        · exact fun blocks => absurd blocks (not_blocks_absent here)
        · intro _ _
          rw [merged, based, here]
          rfl
      | some value =>
        have inner := ih (keyed_inner keyed here) before
        have same : valueAt (mergeValue existing (.table entries)) (key :: rest) =
            valueAt (mergeValue before value) rest := by
          rw [merged, here]
          rfl
        have along := valueAt_cons rest here
        constructor
        · intro found leaf
          rw [leafAt, along] at leaf
          rw [same]
          exact inner.leaf found leaf
        · intro found leads
          rw [along] at leads
          rw [same]
          exact inner.table found leads
        · intro blocks
          rw [same]
          exact inner.blocked ((blocks_cons here).mp blocks)
        · intro none free
          rw [along] at none
          rw [same, based]
          exact inner.free none fun blocks => free ((blocks_cons here).mpr blocks)

theorem nodup_deepMerge {base : Table} (distinct : (Dict.keys base).Nodup) (overlay : Table) :
    (Dict.keys (deepMerge base overlay)).Nodup := by
  induction overlay generalizing base with
  | nil => simpa [deepMerge] using distinct
  | cons entry rest ih =>
    rw [deepMerge]
    exact ih (Dict.nodup_assign distinct _ _)

theorem keyed_mergeValue {overlay : Value} {existing : Option Value} (keyed : Keyed overlay)
    (based : ∀ value, existing = some value → Keyed value) : Keyed (mergeValue existing overlay) := by
  intro path
  induction path generalizing overlay existing with
  | nil =>
    intro inner here
    cases overlay with
    | table entries =>
      cases existing with
      | none => exact keyed [] inner here
      | some value =>
        cases value with
        | table before =>
          obtain rfl : deepMerge before entries = inner :=
            Value.table.inj (Option.some.inj here)
          exact nodup_deepMerge (based _ rfl [] before rfl) entries
        | _ => exact keyed [] inner here
    | _ => cases here
  | cons key rest ih =>
    intro inner here
    cases shape : isTable overlay with
    | false =>
      rw [mergeValue_single shape, valueAt_beyond _ _ shape] at here
      cases here
    | true =>
      obtain ⟨entries, rfl⟩ : ∃ entries, overlay = .table entries := by
        cases overlay with
        | table entries => exact ⟨entries, rfl⟩
        | _ => cases shape
      obtain ⟨before, merged, -, within⟩ := merged_under (keyed [] entries rfl) existing key rest
      have inside : ∀ value, before = some value → Keyed value := by
        intro value same
        obtain ⟨table, rfl, found⟩ := within value same
        exact keyed_inner (based _ rfl) found
      rw [merged] at here
      cases found : Dict.get? entries key with
      | none =>
        rw [found] at here
        obtain ⟨value, same, leads⟩ := Option.bind_eq_some_iff.mp here
        exact inside value same rest inner leads
      | some value =>
        rw [found] at here
        exact ih (keyed_inner keyed found) inside inner here

theorem keyed_member {entries : Table} (keyed : Keyed (.table entries)) {entry : String × Value}
    (member : entry ∈ entries) : Dict.get? entries entry.1 = some entry.2 ∧ Keyed entry.2 := by
  have here := Dict.get?_of_mem (keyed [] entries rfl) member
  exact ⟨here, keyed_inner keyed here⟩

-- A table that each entry of the overlay leaves as it is.
theorem deepMerge_fixed {table overlay : Table}
    (fixed : ∀ entry ∈ overlay, ∃ existing, Dict.get? table entry.1 = some existing ∧
      mergeValue (some existing) entry.2 = existing) : deepMerge table overlay = table := by
  induction overlay with
  | nil => rw [deepMerge]
  | cons entry rest ih =>
    obtain ⟨existing, here, same⟩ := fixed entry List.mem_cons_self
    rw [deepMerge, here, same, Dict.assign_same here]
    exact ih fun other member => fixed other (List.mem_cons_of_mem entry member)

mutual

theorem merge_itself : ∀ {value : Value}, Keyed value → mergeValue (some value) value = value
  | .table entries, keyed => by
    have inner := entries_itself fun entry member => (keyed_member keyed member).2
    have fixed : deepMerge entries entries = entries :=
      deepMerge_fixed fun entry member => ⟨_, (keyed_member keyed member).1, inner entry member⟩
    rw [mergeValue, fixed]
  | .string _, _ => rfl
  | .integer _, _ => rfl
  | .float _, _ => rfl
  | .boolean _, _ => rfl
  | .datetime _, _ => rfl
  | .array _, _ => rfl

theorem entries_itself : ∀ {entries : Table}, (∀ entry ∈ entries, Keyed entry.2) →
    ∀ entry ∈ entries, mergeValue (some entry.2) entry.2 = entry.2
  | [], _ => by simp
  | (_, value) :: rest, keyed => by
    intro entry member
    rcases List.mem_cons.mp member with rfl | member
    · exact merge_itself (keyed _ List.mem_cons_self)
    · exact entries_itself (fun entry member => keyed entry (List.mem_cons_of_mem _ member)) entry member

end

mutual

theorem merge_again : ∀ {value : Value}, Keyed value → ∀ existing,
    mergeValue (some (mergeValue existing value)) value = mergeValue existing value
  | .table entries, keyed, existing => by
    cases existing with
    | none => exact merge_itself keyed
    | some before =>
      cases before with
      | table table =>
        have inner := entries_again fun entry member => (keyed_member keyed member).2
        have fixed : deepMerge (deepMerge table entries) entries = deepMerge table entries := by
          refine deepMerge_fixed fun entry member => ⟨mergeValue (Dict.get? table entry.1) entry.2, ?_, ?_⟩
          · rw [get?_deepMerge table (keyed [] entries rfl), (keyed_member keyed member).1]
            rfl
          · exact inner entry member _
        rw [mergeValue, mergeValue, fixed]
      | _ => exact merge_itself keyed
  | .string _, _, _ => rfl
  | .integer _, _, _ => rfl
  | .float _, _, _ => rfl
  | .boolean _, _, _ => rfl
  | .datetime _, _, _ => rfl
  | .array _, _, _ => rfl

theorem entries_again : ∀ {entries : Table}, (∀ entry ∈ entries, Keyed entry.2) →
    ∀ entry ∈ entries, ∀ existing,
      mergeValue (some (mergeValue existing entry.2)) entry.2 = mergeValue existing entry.2
  | [], _ => by simp
  | (_, value) :: rest, keyed => by
    intro entry member
    rcases List.mem_cons.mp member with rfl | member
    · exact merge_again (keyed _ List.mem_cons_self)
    · exact entries_again (fun entry member => keyed entry (List.mem_cons_of_mem _ member)) entry member

end

def Document.merge (base overlay : Document) : Document where
  entries := deepMerge base.entries overlay.entries
  keyed := @keyed_mergeValue _ (some base.value) overlay.keyed fun _ same =>
    Option.some.inj same ▸ base.keyed

theorem merge_twice (base overlay : Document) :
    (base.merge overlay).merge overlay = base.merge overlay := by
  have same := merge_again overlay.keyed (some base.value)
  have entries : deepMerge (deepMerge base.entries overlay.entries) overlay.entries =
      deepMerge base.entries overlay.entries := Value.table.inj same
  simp only [Document.merge, entries]

/-- The machine's own account name stays with the rest of the `ssh` table. -/
example :
    leafAt (.table (deepMerge [("ssh", .table [("user", .string "vmadmin"), ("port", .integer 22)])]
      [("ssh", .table [("user", .string "operator")])])) ["ssh", "port"] = some (.integer 22) :=
  rfl

end VmDeploy.Config
