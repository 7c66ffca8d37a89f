import Mathlib.Data.List.DropRight

/-! Lists without the elements at their ends that satisfy a test. -/

set_option autoImplicit false

namespace Trim

variable {A B : Type} {p : A → Bool}

/-- The list without its longest front and then its longest back of such elements. -/
def trim (p : A → Bool) (list : List A) : List A :=
  (list.dropWhile p).rdropWhile p

theorem dropWhile_none {list : List A} (none : ∀ x ∈ list, p x = false) :
    list.dropWhile p = list := by
  cases list with
  | nil => rfl
  | cons x rest => rw [List.dropWhile_cons_of_neg (by simp [none x List.mem_cons_self])]

-- What is between two ends that go, and has nothing that goes, is left.
theorem trim_framed {before core after : List A} (front : ∀ x ∈ before, p x = true)
    (none : ∀ x ∈ core, p x = false) (back : ∀ x ∈ after, p x = true) :
    trim p (before ++ core ++ after) = core := by
  rw [trim, List.append_assoc, List.dropWhile_append_of_pos front]
  cases core with
  | nil =>
    have gone : after.dropWhile p = [] := List.dropWhile_eq_nil_iff.mpr back
    rw [List.nil_append, gone]
    rfl
  | cons x rest =>
    have here : ¬ p x = true := by simp [none x List.mem_cons_self]
    rw [List.cons_append, List.dropWhile_cons_of_neg here, ← List.cons_append, List.rdropWhile,
      List.reverse_append, List.dropWhile_append_of_pos (fun y member => back y (List.mem_reverse.mp member)),
      dropWhile_none (fun y member => none y (List.mem_reverse.mp member)), List.reverse_reverse]

-- A list is what is left of it between two ends that go.
theorem trim_splits (p : A → Bool) (list : List A) :
    ∃ before after, list = before ++ trim p list ++ after ∧ (∀ x ∈ before, p x = true) ∧
      ∀ x ∈ after, p x = true := by
  refine ⟨list.takeWhile p, (list.dropWhile p).rtakeWhile p, ?_, ?_, ?_⟩
  · rw [trim, List.append_assoc, List.rdropWhile, List.rtakeWhile, ← List.reverse_append,
      List.takeWhile_append_dropWhile, List.reverse_reverse, List.takeWhile_append_dropWhile]
  · exact fun x member => List.mem_takeWhile_imp member
  · exact fun x member => List.mem_rtakeWhile_imp member

theorem trim_map (f : B → A) (list : List B) :
    trim p (list.map f) = (trim (p ∘ f) list).map f := by
  rw [trim, List.dropWhile_map, List.rdropWhile, ← List.map_reverse, List.dropWhile_map,
    ← List.map_reverse]
  rfl

theorem rdropWhile_cons (x : A) (list : List A) :
    (x :: list).rdropWhile p =
      if list.rdropWhile p = [] then (if p x then [] else [x]) else x :: list.rdropWhile p := by
  simp only [List.rdropWhile, List.reverse_cons, List.dropWhile_append, List.isEmpty_iff,
    List.reverse_eq_nil_iff]
  split
  · by_cases gone : p x = true <;> simp [gone]
  · rw [List.reverse_append, List.reverse_singleton, List.singleton_append]

end Trim
