import VmDeploy.Encoding.JsonText

/-! The text of flat objects without blanks, and what a reader makes of it. -/

set_option autoImplicit false

namespace Json

section Writing

variable (escape : Char → List Char)

def row (opening closing : Char) : List (List Char) → List Char
  | [] => [opening, closing]
  | part :: parts => opening :: (part ++ parts.flatMap (fun part => ',' :: part) ++ [closing])

def compactMember (member : List Char × List Char) : List Char :=
  quoted escape member.1 ++ (':' :: quoted escape member.2)

def compactObject (members : Fields) : List Char :=
  row '{' '}' (members.map (compactMember escape))

def compactArray (objects : List Fields) : List Char :=
  row '[' ']' (objects.map (compactObject escape))

end Writing

theorem run_row {A : Type} {p : A → List Char} (frame : List A → Frame)
    (expects : Bool → Mode) (closed : List A → Option Reader) (stack : List Frame)
    {reader : Reader} {opening closing : Char}
    (opens : step reader opening = some ⟨frame [] :: stack, expects true⟩)
    (adds : ∀ before closes entry, run ⟨frame before :: stack, expects closes⟩ (p entry) =
      some ⟨frame (before ++ [entry]) :: stack, .after⟩)
    (parts : ∀ before, step ⟨frame before :: stack, .after⟩ ',' =
      some ⟨frame before :: stack, expects false⟩)
    (closes : ∀ before, step ⟨frame before :: stack, .after⟩ closing = closed before)
    (empty : step ⟨frame [] :: stack, expects true⟩ closing = closed []) (entries : List A) :
    run reader (row opening closing (entries.map p)) = closed entries := by
  have rest : ∀ before : List A, ∀ entries : List A,
      run ⟨frame before :: stack, .after⟩ ((entries.map p).flatMap fun part => ',' :: part) =
        some ⟨frame (before ++ entries) :: stack, .after⟩ := by
    intro before entries
    induction entries generalizing before with
    | nil => simp [run]
    | cons entry entries ih =>
      rw [List.map_cons, List.flatMap_cons, List.cons_append, run_cons, parts, Option.bind_some,
        run_append, adds, Option.bind_some, ih, List.append_assoc]
      rfl
  have last : ∀ before, run ⟨frame before :: stack, .after⟩ [closing] = closed before := by
    intro before
    rw [run_cons, closes]
    cases closed before <;> rfl
  cases entries with
  | nil =>
    rw [List.map_nil, row, run_cons, opens, Option.bind_some, run_cons, empty]
    cases closed [] <;> rfl
  | cons entry entries =>
    rw [List.map_cons, row, run_cons, opens, Option.bind_some, run_append, run_append, adds,
      Option.bind_some, rest, Option.bind_some, last]
    rfl

variable {escape : Char → List Char}

theorem run_compactMember (escapes : Escapes escape) (stack : List Frame)
    (before : List (Content × Value)) (closes : Bool) (member : List Char × List Char) :
    run ⟨.members before :: stack, .key closes⟩ (compactMember escape member) =
      some ⟨.members (before ++ [memberValue member]) :: stack, .after⟩ := by
  rw [compactMember, run_append, run_quoted escapes member.1 (by simp [step, isBlank])]
  simp only [deliverText, Option.bind_some, run_cons, step]
  have space : isBlank ':' = false := rfl
  simp only [space, Bool.false_eq_true, if_false, if_true, Option.bind_some]
  rw [run_quoted escapes member.2 (by simp [step, isBlank, beginValue])]
  rfl

theorem run_compactObject (escapes : Escapes escape) {reader : Reader}
    (opens : step reader '{' = some ⟨.members [] :: reader.stack, .key true⟩) (members : Fields) :
    run reader (compactObject escape members) = deliver (objectValue members) reader.stack := by
  refine run_row (fun members => .members (members.map memberValue)) .key
    (fun members => deliver (objectValue members) reader.stack) reader.stack opens ?_ ?_ ?_ ?_ members
  · intro before closes member
    rw [run_compactMember escapes, List.map_append]
    rfl
  · intro before
    simp [step, pass, isBlank, afterValue]
  · intro before
    simp [step, pass, isBlank, afterValue, closeObject, objectValue]
  · simp [step, isBlank, closeObject, objectValue]

theorem run_compactArray (escapes : Escapes escape) (objects : List Fields) :
    run ⟨[], .value false⟩ (compactArray escape objects) =
      some ⟨[], .done (.array (objects.map objectValue))⟩ := by
  refine run_row (fun objects => .elements (objects.map objectValue)) .value
    (fun objects => some ⟨[], .done (.array (objects.map objectValue))⟩) [] ?_ ?_ ?_ ?_ ?_ objects
  · simp [step, isBlank, beginValue]
  · intro before closes members
    rw [run_compactObject escapes (by simp [step, isBlank, beginValue]), List.map_append]
    rfl
  · intro before
    simp [step, pass, isBlank, afterValue]
  · intro before
    simp [step, pass, isBlank, afterValue, closeArray, deliver]
  · simp [step, isBlank, closeArray, deliver]

-- A compact array is read as what was written, also with a line break after it.
theorem read_compactArray {limits : Limits} (deep : within limits.depth 2 = true)
    (escapes : Escapes escape) (objects : List Fields) :
    read limits (compactArray escape objects ++ ['\n']) = some (.array (objects.map objectValue)) := by
  have parses : parse (compactArray escape objects ++ ['\n']) =
      some (.array (objects.map objectValue)) := by
    rw [parse, run_append, run_compactArray escapes]
    rfl
  rw [read, parses, Option.bind_some, if_pos (document_admitted deep objects)]

end Json
