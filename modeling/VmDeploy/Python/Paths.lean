import VmDeploy.Python.Text

/-! `pathlib` on a host whose paths are separated by `/`, and text read from a file. -/

set_option autoImplicit false

namespace Python

def pathParts (path : Text) : List Text :=
  (path.splitOn '/').filter fun part => part ≠ [] ∧ part ≠ ['.']

/-- Two leading slashes are kept, more of them are one. -/
def pathRoot : Text → Text
  | '/' :: '/' :: '/' :: _ => ['/']
  | '/' :: '/' :: _ => ['/', '/']
  | '/' :: _ => ['/']
  | _ => []

def pathOf (root : Text) (parts : List Text) : Text :=
  let text := root ++ ['/'].intercalate parts
  if text = [] then ['.'] else text

/-- `str(Path(path))` -/
def pathText (path : Text) : Text :=
  pathOf (pathRoot path) (pathParts path)

theorem mem_intercalate {c separator : Char} {parts : List Text} :
    c ∈ [separator].intercalate parts → c = separator ∨ ∃ part ∈ parts, c ∈ part := by
  induction parts with
  | nil => simp
  | cons part parts ih =>
    cases parts with
    | nil =>
      intro here
      exact .inr ⟨part, List.mem_singleton_self part, by simpa using here⟩
    | cons next parts =>
      rw [List.intercalate_cons_cons, List.append_assoc, List.mem_append, List.mem_append, List.mem_singleton]
      rintro (here | rfl | later)
      · exact .inr ⟨part, List.mem_cons_self, here⟩
      · exact .inl rfl
      · refine (ih later).imp_right fun ⟨other, listed, inside⟩ => ?_
        exact ⟨other, List.mem_cons_of_mem _ listed, inside⟩

theorem part_of_intercalate {c separator : Char} {parts : List Text} {part : Text} (listed : part ∈ parts)
    (inside : c ∈ part) : c ∈ [separator].intercalate parts := by
  induction parts with
  | nil => cases listed
  | cons first parts ih =>
    cases parts with
    | nil => simpa using List.mem_singleton.mp listed ▸ inside
    | cons next parts =>
      rw [List.intercalate_cons_cons]
      rcases List.mem_cons.mp listed with rfl | later
      · simp [inside]
      · exact List.mem_append_right _ (ih later)

-- A path is shown with its own characters, slashes and dots.
theorem mem_pathText {c : Char} {path : Text} (member : c ∈ pathText path) :
    c ∈ path ∨ c = '/' ∨ c = '.' := by
  have parts : c ∈ pathRoot path ++ ['/'].intercalate (pathParts path) → c ∈ path ∨ c = '/' := by
    intro member
    rcases List.mem_append.mp member with rooted | joined
    · refine .inr ?_
      unfold pathRoot at rooted
      split at rooted
      · exact List.mem_singleton.mp rooted
      · exact or_self_iff.mp ((List.mem_pair).mp rooted)
      · exact List.mem_singleton.mp rooted
      · cases rooted
    · rcases mem_intercalate joined with slash | ⟨part, listed, inside⟩
      · exact .inr slash
      · have whole : c ∈ ['/'].intercalate (path.splitOn '/') :=
          part_of_intercalate (List.mem_filter.mp listed).1 inside
        rw [List.intercalate_splitOn] at whole
        exact .inl whole
  rw [pathText, pathOf] at member
  split at member
  · exact .inr (.inr (List.mem_singleton.mp member))
  · exact (parts member).imp_right .inl

/-- `str(Path(path).parent)` -/
def pathParent (path : Text) : Text :=
  pathOf (pathRoot path) (pathParts path).dropLast

/-- `Path(path).name` -/
def pathName (path : Text) : Text :=
  (pathParts path).getLastD []

/-- `Path(directory) / name` -/
def joinPath (directory name : Text) : Text :=
  if pathRoot name = [] then pathOf (pathRoot directory) (pathParts directory ++ pathParts name)
  else pathText name

/-- Line ends as a text file opened with universal newlines shows them. -/
def universalNewlines : Text → Text
  | '\r' :: '\n' :: rest => '\n' :: universalNewlines rest
  | '\r' :: rest => '\n' :: universalNewlines rest
  | c :: rest => c :: universalNewlines rest
  | [] => []

/-- The text of ASCII bytes, or the place of the first byte that is none. -/
def asciiText (bytes : List UInt8) : Except (UInt8 × Nat) Text :=
  match bytes.findIdx? (128 ≤ ·) with
  | some place => .error (bytes.getD place 0, place)
  | none => .ok (bytes.map fun byte => Char.ofNat byte.toNat)

end Python
