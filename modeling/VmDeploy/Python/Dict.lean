import Mathlib.Data.List.Basic
import Mathlib.Data.List.Nodup

/-! Dictionaries of Python: entries in the order in which their keys were first set. -/

set_option autoImplicit false

namespace Python

abbrev Dict (K V : Type) := List (K × V)

namespace Dict

variable {K V : Type} [DecidableEq K]

/-- `dict.get(key)` -/
def get? (dict : Dict K V) (key : K) : Option V :=
  (dict.find? fun entry => entry.1 = key).map Prod.snd

/-- `dict[key] = value`, which keeps the place of a key that is there. -/
def assign : Dict K V → K → V → Dict K V
  | [], key, value => [(key, value)]
  | entry :: rest, key, value =>
      if entry.1 = key then (key, value) :: rest else entry :: assign rest key value

def keys (dict : Dict K V) : List K :=
  dict.map Prod.fst

@[simp] theorem get?_nil (key : K) : get? ([] : Dict K V) key = none := rfl

theorem get?_cons (entry : K × V) (dict : Dict K V) (key : K) :
    get? (entry :: dict) key = if entry.1 = key then some entry.2 else get? dict key := by
  unfold get?
  by_cases same : entry.1 = key <;> simp [same]

theorem get?_assign (dict : Dict K V) (key other : K) (value : V) :
    get? (assign dict key value) other = if key = other then some value else get? dict other := by
  induction dict with
  | nil => simp [assign, get?_cons]
  | cons entry rest ih =>
    unfold assign
    by_cases here : entry.1 = key
    · rw [if_pos here, get?_cons, get?_cons, here]
      by_cases same : key = other <;> simp [same]
    · rw [if_neg here, get?_cons, get?_cons, ih]
      by_cases same : entry.1 = other
      · have differs : key ≠ other := by
          rintro rfl
          exact here same
        simp [same, differs]
      · simp [same]

theorem keys_assign (dict : Dict K V) (key : K) (value : V) :
    keys (assign dict key value) =
      if key ∈ keys dict then keys dict else keys dict ++ [key] := by
  induction dict with
  | nil => simp [assign, keys]
  | cons entry rest ih =>
    unfold assign
    by_cases here : entry.1 = key
    · simp [here, keys]
    · have differs : key ≠ entry.1 := fun same => here same.symm
      have whole : keys (entry :: rest) = entry.1 :: keys rest := rfl
      have assigned : keys (entry :: assign rest key value) =
          entry.1 :: keys (assign rest key value) := rfl
      rw [if_neg here, assigned, ih, whole]
      by_cases member : key ∈ keys rest
      · simp [member]
      · simp [differs, member]

theorem nodup_assign {dict : Dict K V} (distinct : (keys dict).Nodup) (key : K) (value : V) :
    (keys (assign dict key value)).Nodup := by
  rw [keys_assign]
  split
  · exact distinct
  · next fresh => exact List.nodup_append'.mpr ⟨distinct, List.nodup_singleton key, by simpa using fresh⟩

theorem isSome_get? (dict : Dict K V) (key : K) : (get? dict key).isSome = true ↔ key ∈ keys dict := by
  induction dict with
  | nil => simp [keys]
  | cons entry rest ih =>
    rw [get?_cons]
    by_cases here : entry.1 = key
    · simp [here, keys]
    · have differs : key ≠ entry.1 := fun same => here same.symm
      simpa [here, keys, differs] using ih

theorem get?_of_mem {dict : Dict K V} (distinct : (keys dict).Nodup) {entry : K × V}
    (member : entry ∈ dict) : get? dict entry.1 = some entry.2 := by
  induction dict with
  | nil => cases member
  | cons first rest ih =>
    obtain ⟨fresh, distinct⟩ := List.nodup_cons.mp distinct
    rw [get?_cons]
    rcases List.mem_cons.mp member with rfl | later
    · rw [if_pos rfl]
    · have differs : first.1 ≠ entry.1 := by
        intro same
        exact fresh (List.mem_map.mpr ⟨entry, later, same.symm⟩)
      rw [if_neg differs, ih distinct later]

theorem assign_same {dict : Dict K V} {key : K} {value : V} (here : get? dict key = some value) :
    assign dict key value = dict := by
  induction dict with
  | nil => cases here
  | cons first rest ih =>
    rw [get?_cons] at here
    unfold assign
    by_cases same : first.1 = key
    · rw [if_pos same] at here ⊢
      rw [← same, ← Option.some.inj here]
    · rw [if_neg same] at here ⊢
      rw [ih here]

end Dict

end Python
