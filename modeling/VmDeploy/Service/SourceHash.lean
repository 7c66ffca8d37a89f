import VmDeploy.Python.Text
import VmDeploy.Remote.Host

/-! `inventory_service.py`: the fingerprint of the Go sources. -/

set_option autoImplicit false

open Effects Python

namespace VmDeploy.Service

open Remote

abbrev Bytes := List UInt8

inductive DownloadFault where
  | requestException (text : String)
  | osError (text : String)

/-- What the deployment asks of the automation host's own files. -/
inductive LocalOp where
  | isFile (path : String)
  | readBytes (path : String)
  | sha256File (path : String)
  | mkdirParents (path : String)
  | download (url destination : String)
  | unlink (path : String)

abbrev LocalOp.Reply : LocalOp → Type
  | .isFile _ => Bool
  | .readBytes _ => Except String Bytes
  | .sha256File _ => Except String String
  | .mkdirParents _ => Except String Unit
  | .download _ _ => Except DownloadFault Unit
  | .unlink _ => Except String Unit

abbrev localSignature : Signature :=
  ⟨LocalOp, LocalOp.Reply⟩

abbrev ServiceProg (A : Type) :=
  Prog (remoteSignature.sum localSignature) PyError A

def onGuest {A : Type} (p : RemoteProg A) : ServiceProg A :=
  p.liftLeft

def askLocal (op : LocalOp) : ServiceProg op.Reply :=
  Prog.liftRight (Prog.perform (I := localSignature) op)

def orOsError {A : Type} : Except String A → ServiceProg A
  | .ok value => .done value
  | .error message => .raise (.osError message)

def sourceFiles : List String :=
  ["go.mod", "main.go", "crypto.go", "inventory.go", "manifest.go"]

def templateRel : String := "templates/clusterview.html"

/-- Every file whose contents define the compiled binary, in hashing order. -/
def hashFiles : List String :=
  sourceFiles ++ [templateRel]

def sourcePath (sourceDir name : String) : String :=
  s!"{sourceDir}/{name}"

theorem sourcePath_injective (sourceDir : String) : Function.Injective (sourcePath sourceDir) := by
  intro first second same
  have text : ∀ name, sourcePath sourceDir name = sourceDir ++ "/" ++ name := fun _ => rfl
  rw [text, text] at same
  exact (String.append_right_inj _).mp same

def readSource (path : String) : ServiceProg Bytes := do
  orOsError (← askLocal (.readBytes path))

/-- What one file adds to the digest: its name and its content, each closed by a NUL. -/
def hashPart (name : String) (content : Bytes) : Bytes :=
  name.toUTF8.data.toList ++ 0 :: (content ++ [0])

def preimage : List String → List Bytes → Bytes
  | name :: names, content :: contents => hashPart name content ++ preimage names contents
  | _, _ => []

/-- The contents that `source_hash` feeds to the digest, read one file at a time. -/
def readSources (sourceDir : String) : List String → ServiceProg (List Bytes)
  | [] => pure []
  | name :: names => do
      let path := sourcePath sourceDir name
      if ← askLocal (.isFile path) then
        let content ← readSource path
        let contents ← readSources sourceDir names
        pure (content :: contents)
      else
        .raise (.vmDeployError s!"Go service source missing from {sourceDir}: {name}")

/-- The fingerprint of a tree, given by the contents of its files in hashing order. -/
def fingerprint (sha256 : Bytes → Bytes) (contents : List Bytes) : String :=
  hex (sha256 (preimage hashFiles contents))

def sourceHash (sha256 : Bytes → Bytes) (sourceDir : String) : ServiceProg String := do
  let contents ← readSources sourceDir hashFiles
  pure (fingerprint sha256 contents)

/-- One content for each hashed file. -/
@[ext] structure Tree where
  contents : List Bytes
  complete : contents.length = hashFiles.length
  deriving DecidableEq

def TextOnly (contents : List Bytes) : Prop :=
  ∀ content ∈ contents.dropLast, 0 ∉ content

theorem hashPart_append (name : String) (content rest : Bytes) :
    hashPart name content ++ rest = name.toUTF8.data.toList ++ 0 :: (content ++ 0 :: rest) := by
  simp [hashPart]

theorem hashPart_injective {name : String} {first second rest others : Bytes}
    (plain : 0 ∉ first) (clean : 0 ∉ second)
    (same : hashPart name first ++ rest = hashPart name second ++ others) :
    first = second ∧ rest = others := by
  rw [hashPart_append, hashPart_append, List.append_cancel_left_eq] at same
  have bodies := (List.cons.inj same).2
  have upToNul : ∀ {content : Bytes} (later : Bytes), 0 ∉ content →
      (content ++ 0 :: later).takeWhile (· != 0) = content := by
    intro content later none
    have other : ∀ byte ∈ content, (byte != 0) = true := by
      intro byte member
      simpa using fun zero : byte = 0 => none (zero ▸ member)
    rw [List.takeWhile_append_of_pos other]
    simp
  have content : first = second := by
    rw [← upToNul rest plain, bodies, upToNul others clean]
  subst content
  exact ⟨rfl, (List.cons.inj (List.append_cancel_left bodies)).2⟩

-- Trees of text with one preimage are equal. The last file is closed by the end of
-- the preimage, so it may hold any bytes.
theorem preimage_injective {names : List String} {first second : List Bytes}
    (complete : first.length = names.length) (full : second.length = names.length)
    (plain : TextOnly first) (clean : TextOnly second)
    (same : preimage names first = preimage names second) : first = second := by
  induction names generalizing first second with
  | nil => rw [List.eq_nil_of_length_eq_zero complete, List.eq_nil_of_length_eq_zero full]
  | cons name names ih =>
    obtain ⟨content, contents, rfl⟩ := List.exists_cons_of_length_eq_add_one complete
    obtain ⟨other, others, rfl⟩ := List.exists_cons_of_length_eq_add_one full
    simp only [List.length_cons, Nat.add_right_cancel_iff] at complete full
    simp only [preimage] at same
    cases names with
    | nil =>
      obtain rfl := List.eq_nil_of_length_eq_zero complete
      obtain rfl := List.eq_nil_of_length_eq_zero full
      rw [hashPart_append, hashPart_append, List.append_cancel_left_eq] at same
      have body := List.append_inj_left' (List.cons.inj same).2 rfl
      rw [body]
    | cons next names =>
      have longer : contents ≠ [] := fun empty => by simp [empty] at complete
      have longest : others ≠ [] := fun empty => by simp [empty] at full
      rw [TextOnly, List.dropLast_cons_of_ne_nil longer, List.forall_mem_cons] at plain
      rw [TextOnly, List.dropLast_cons_of_ne_nil longest, List.forall_mem_cons] at clean
      obtain ⟨rfl, rest⟩ := hashPart_injective plain.1 clean.1 same
      rw [ih complete full plain.2 clean.2 rest]

theorem strip_fingerprint (sha256 : Bytes → Bytes) (contents : List Bytes) :
    strip (fingerprint sha256 contents).toList = (fingerprint sha256 contents).toList :=
  strip_visible (hex_forall (by decide) _)

theorem fingerprint_injective {sha256 : Bytes → Bytes} (noCollision : Function.Injective sha256)
    {first second : Tree} (plain : TextOnly first.contents) (clean : TextOnly second.contents)
    (same : fingerprint sha256 first.contents = fingerprint sha256 second.contents) :
    first = second :=
  Tree.ext (preimage_injective first.complete second.complete plain clean
    (noCollision (hex_injective same)))

end VmDeploy.Service
