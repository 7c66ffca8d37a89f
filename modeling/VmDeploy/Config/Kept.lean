import VmDeploy.Config.Merge
import VmDeploy.Encoding.TomlReader

/-! A string that a statement has set stays as it is in the rest of the document. -/

set_option autoImplicit false

open Python Toml

namespace VmDeploy.Config

/-- A change of a table, where it is made, leaves every string in its place. -/
def KeepsStrings (change : Table → Option Table) : Prop :=
  ∀ before after path text, change before = some after →
    valueAt (.table before) path = some (.string text) →
    valueAt (.table after) path = some (.string text)

theorem valueAt_assign (table : Table) (part first : String) (value : Value) (path : Key) :
    valueAt (.table (Dict.assign table part value)) (first :: path) =
      if part = first then valueAt value path else valueAt (.table table) (first :: path) := by
  rw [valueAt, valueAt, Dict.get?_assign]
  split <;> rfl

-- A key that leads to a string is set, and leads to a table where the path goes on.
theorem string_set {table : Table} {part : String} {path : Key} {text : String}
    (here : valueAt (.table table) (part :: path) = some (.string text)) :
    ∃ value, Dict.get? table part = some value ∧ valueAt value path = some (.string text) ∧
      ∀ elements, value ≠ .array elements := by
  rw [valueAt] at here
  obtain ⟨value, found, here⟩ := Option.bind_eq_some_iff.mp here
  refine ⟨value, found, here, ?_⟩
  rintro elements rfl
  cases path <;> simp [valueAt] at here

theorem keeps_assign {part : String} {change : Table → Option Table}
    (fresh : ∀ before after, change before = some after →
      (∀ entries, Dict.get? before part ≠ some (.table entries)) ∧
      (∀ text, Dict.get? before part ≠ some (.string text)) ∧
      ∃ value, after = Dict.assign before part value) : KeepsStrings change := by
  intro before after path text changed here
  obtain ⟨noTable, noString, value, rfl⟩ := fresh before after changed
  cases path with
  | nil => cases here
  | cons first path =>
    rw [valueAt_assign]
    by_cases same : part = first
    · subst same
      obtain ⟨found, set, leads, -⟩ := string_set here
      cases path with
      | nil =>
        obtain rfl : found = .string text := Option.some.inj leads
        exact absurd set (noString text)
      | cons next path =>
        cases found with
        | table entries => exact absurd set (noTable entries)
        | _ => simp [valueAt] at leads
    · rwa [if_neg same]

theorem updateNest_keeps {accessLists : Bool} {change : Table → Option Table}
    (keeps : KeepsStrings change) (key : Key) :
    KeepsStrings (updateNest accessLists key change) := by
  induction key with
  | nil => exact keeps
  | cons part rest ih =>
    intro before after path text changed here
    cases path with
    | nil => cases here
    | cons first path =>
      by_cases same : part = first
      · subst same
        obtain ⟨value, found, leads, noArray⟩ := string_set here
        cases value with
        | table inner =>
          simp only [updateNest, found] at changed
          obtain ⟨inner', changes, rfl⟩ := Option.map_eq_some_iff.mp changed
          rw [valueAt_assign, if_pos rfl]
          exact ih inner inner' path text changes leads
        | array elements => exact absurd rfl (noArray elements)
        | _ => simp [updateNest, found] at changed
      · obtain ⟨value, rfl⟩ : ∃ value, after = Dict.assign before part value := by
          unfold updateNest at changed
          split at changed
          · obtain ⟨inner, -, rfl⟩ := Option.map_eq_some_iff.mp changed
            exact ⟨_, rfl⟩
          · obtain ⟨inner, -, rfl⟩ := Option.map_eq_some_iff.mp changed
            exact ⟨_, rfl⟩
          · split at changed
            · obtain ⟨inner, -, rfl⟩ := Option.map_eq_some_iff.mp changed
              exact ⟨_, rfl⟩
            · cases changed
          · cases changed
        rwa [valueAt_assign, if_neg same]

theorem addEntry_keeps (accessLists : Bool) (parent : Key) (stem : String) (value : Value) :
    KeepsStrings (addEntry accessLists parent stem value) := by
  refine updateNest_keeps (@keeps_assign stem _ ?_) parent
  intro before after changed
  split at changed
  · cases changed
  · next fresh =>
    have absent : Dict.get? before stem = none := by simpa using fresh
    refine ⟨by simp [absent], by simp [absent], value, ?_⟩
    exact (Option.some.inj changed).symm

theorem appendTable_keeps (stem : String) : KeepsStrings (appendTable stem) := by
  refine @keeps_assign stem _ ?_
  intro before after changed
  unfold appendTable at changed
  split at changed
  · next absent => exact ⟨by simp [absent], by simp [absent], _, (Option.some.inj changed).symm⟩
  · next elements set => exact ⟨by simp [set], by simp [set], _, (Option.some.inj changed).symm⟩
  · cases changed

variable {digitLimit : Option Nat} {header header' : Key} {out out' : Output} {text rest : Toml.Text}
  {path : Key} {value : String}

theorem createTable_keeps (read : createTable out text = some (header, out', rest))
    (here : valueAt (.table out.data) path = some (.string value)) :
    valueAt (.table out'.data) path = some (.string value) := by
  simp only [createTable, Option.bind_eq_bind, Option.bind_eq_some_iff] at read
  obtain ⟨⟨key, after⟩, -, read⟩ := read
  split at read
  · cases read
  · obtain ⟨data, changed, read⟩ := Option.bind_eq_some_iff.mp read
    obtain ⟨closed, -, read⟩ := Option.bind_eq_some_iff.mp read
    cases read
    exact updateNest_keeps (fun _ _ _ _ same => by cases same; exact id) key _ _ _ _ changed here

theorem createList_keeps (read : createList out text = some (header, out', rest))
    (here : valueAt (.table out.data) path = some (.string value)) :
    valueAt (.table out'.data) path = some (.string value) := by
  simp only [createList, Option.bind_eq_bind, Option.bind_eq_some_iff] at read
  obtain ⟨⟨key, after⟩, -, read⟩ := read
  split at read
  · cases read
  · obtain ⟨data, changed, read⟩ := Option.bind_eq_some_iff.mp read
    simp only [Option.bind_eq_some_iff] at read
    obtain ⟨closed, -, closed', -, read⟩ := read
    cases read
    exact updateNest_keeps (appendTable_keeps _) _ _ _ _ _ changed here

theorem keyValue_keeps (read : keyValue digitLimit header out text = some (out', rest))
    (here : valueAt (.table out.data) path = some (.string value)) :
    valueAt (.table out'.data) path = some (.string value) := by
  simp only [keyValue, Option.bind_eq_bind, Option.bind_eq_some_iff] at read
  obtain ⟨⟨key, after⟩, -, equals, -, ⟨set, left⟩, -, read⟩ := read
  split at read
  · cases read
  · split at read
    · cases read
    · obtain ⟨data, changed, read⟩ := Option.bind_eq_some_iff.mp read
      cases read
      exact addEntry_keeps true _ _ _ _ _ _ _ changed here

theorem statement_keeps
    (read : statement digitLimit header out text = some (header', out', rest))
    (here : valueAt (.table out.data) path = some (.string value)) :
    valueAt (.table out'.data) path = some (.string value) := by
  unfold statement at read
  split at read
  · exact createList_keeps read here
  · exact createTable_keeps read here
  · cases read
    exact here
  · split at read
    · obtain ⟨⟨next, left⟩, reads, read⟩ := Option.bind_eq_some_iff.mp read
      cases read
      exact keyValue_keeps reads here
    · cases read
  · cases read

-- The rest of a document leaves a string as it is.
theorem statements_keep {fuel : Nat} {document : Table}
    (read : statements digitLimit fuel header out text = some document)
    (here : valueAt (.table out.data) path = some (.string value)) :
    valueAt (.table document) path = some (.string value) := by
  induction fuel generalizing header out text with
  | zero => cases read
  | succ fuel ih =>
    unfold statements at read
    split at read
    · cases read
      exact here
    · exact ih read here
    · obtain ⟨⟨next, after, left⟩, steps, read⟩ := Option.bind_eq_some_iff.mp read
      have kept := statement_keeps steps here
      obtain ⟨ended, -, read⟩ := Option.bind_eq_some_iff.mp read
      split at read
      · cases read
        exact kept
      · exact ih read kept
      · cases read

end VmDeploy.Config
