import VmDeploy.Encoding.Delimited
import VmDeploy.Service.SourceHash

/-! Which trees of Go sources their fingerprint tells from every other tree. -/

set_option autoImplicit false

open Effects

namespace VmDeploy.Service

open Remote
open Delimited (joined marked SoleCuts)

abbrev SourceFiles := String → Option Bytes

/-- What the hash reads of a file system that nobody writes to; everything else is arbitrary. -/
def readsFrom (files : SourceFiles) (remote : (op : RemoteOp) → op.Reply)
    (others : (op : LocalOp) → op.Reply) :
    (op : (remoteSignature.sum localSignature).Op) → Unit →
      (remoteSignature.sum localSignature).Reply op × Unit
  | .inl op, w => (remote op, w)
  | .inr (.isFile path), w => ((files path).isSome, w)
  | .inr (.readBytes path), w => ((files path).elim (.error "No such file") .ok, w)
  | .inr op, w => (others op, w)

def Complete (files : SourceFiles) (sourceDir : String) : Prop :=
  ∀ name ∈ hashFiles, (files (sourcePath sourceDir name)).isSome

def contentsAt (files : SourceFiles) (sourceDir : String) (names : List String) : List Bytes :=
  names.map fun name => (files (sourcePath sourceDir name)).getD []

section Reads

variable {files : SourceFiles} {sourceDir : String} {remote : (op : RemoteOp) → op.Reply}
  {others : (op : LocalOp) → op.Reply}

theorem execute_readSources {names : List String}
    (present : ∀ name ∈ names, (files (sourcePath sourceDir name)).isSome) :
    (readSources sourceDir names).execute (readsFrom files remote others) () =
      (.returned (contentsAt files sourceDir names), ()) := by
  induction names with
  | nil => rfl
  | cons name names ih =>
    obtain ⟨content, found⟩ := Option.isSome_iff_exists.mp (present name List.mem_cons_self)
    have later := ih fun other member => present other (List.mem_cons_of_mem _ member)
    have head : (askLocal (.isFile (sourcePath sourceDir name))).execute
        (readsFrom files remote others) () = (.returned true, ()) := by
      simp [askLocal, Prog.liftRight, Prog.perform, Prog.execute, readsFrom, found]
    have body : (readSource (sourcePath sourceDir name)).execute
        (readsFrom files remote others) () = (.returned content, ()) := by
      simp only [readSource, askLocal, Prog.liftRight, Prog.perform, Prog.execute, Prog.bind,
        Prog.bind_eq, readsFrom, found]
      rfl
    rw [readSources, Prog.bind_eq, execute_bind head, if_pos rfl, Prog.bind_eq, execute_bind body,
      Prog.bind_eq, execute_bind later]
    simp [contentsAt, found, Prog.execute]

theorem execute_sourceHash (sha256 : Bytes → Bytes) (complete : Complete files sourceDir) :
    (sourceHash sha256 sourceDir).execute (readsFrom files remote others) () =
      (.returned (fingerprint sha256 (contentsAt files sourceDir hashFiles)), ()) := by
  rw [sourceHash, Prog.bind_eq, execute_bind (execute_readSources complete)]
  rfl

end Reads

def nameBytes (name : String) : Bytes :=
  name.toUTF8.data.toList

-- Between two files the preimage has the second one's name between NULs.
theorem preimage_joined (name : String) {names : List String} {contents : List Bytes}
    (counted : contents.length = names.length + 1) :
    preimage (name :: names) contents =
      nameBytes name ++ 0 :: (joined (names.map fun next => marked 0 (nameBytes next)) contents ++ [0]) := by
  induction names generalizing name contents with
  | nil =>
    obtain ⟨content, rest, rfl⟩ := List.exists_cons_of_length_eq_add_one counted
    obtain rfl := List.eq_nil_of_length_eq_zero (Nat.succ.inj counted)
    simp [preimage, hashPart, nameBytes, joined]
  | cons next names ih =>
    obtain ⟨content, rest, rfl⟩ := List.exists_cons_of_length_eq_add_one counted
    rw [preimage, ih next (Nat.succ.inj counted)]
    simp [hashPart, nameBytes, joined, marked]

/-- The next file's name between NULs is neither in a file closed by the NUL behind it, nor in
the next file opened by the one before it. -/
def Unmarked : List String → List Bytes → Prop
  | name :: names, first :: second :: rest =>
      (¬ marked 0 (nameBytes name) <:+: first ++ [0] ∧
        ¬ marked 0 (nameBytes name) <:+: 0 :: second) ∧ Unmarked names (second :: rest)
  | _, _ => True

theorem soleCuts_names {names : List String} (plain : ∀ name ∈ names, 0 ∉ nameBytes name)
    (contents : List Bytes) :
    SoleCuts (names.map fun next => marked 0 (nameBytes next)) contents ↔ Unmarked names contents := by
  induction names generalizing contents with
  | nil => simp [SoleCuts, Unmarked]
  | cons name names ih =>
    match contents with
    | [] | [_] => simp [SoleCuts, Unmarked]
    | first :: second :: rest =>
      rw [List.map_cons, SoleCuts, Unmarked,
        Delimited.soleCut_marked_iff (plain name List.mem_cons_self),
        ih fun other member => plain other (List.mem_cons_of_mem _ member)]

theorem hashFiles_plain : ∀ name ∈ hashFiles, 0 ∉ nameBytes name := by
  decide

def filesOf (sourceDir : String) (names : List String) (contents : List Bytes) : SourceFiles :=
  fun path => ((names.zip contents).find? fun entry => sourcePath sourceDir entry.1 == path).map Prod.snd

theorem contentsAt_filesOf (sourceDir : String) {names : List String} {contents : List Bytes}
    (distinct : names.Nodup) (counted : contents.length = names.length) :
    (∀ name ∈ names, (filesOf sourceDir names contents (sourcePath sourceDir name)).isSome) ∧
      contentsAt (filesOf sourceDir names contents) sourceDir names = contents := by
  induction names generalizing contents with
  | nil => exact ⟨by simp, (List.eq_nil_of_length_eq_zero counted).symm⟩
  | cons name names ih =>
    obtain ⟨content, rest, rfl⟩ := List.exists_cons_of_length_eq_add_one counted
    obtain ⟨fresh, distinct⟩ := List.nodup_cons.mp distinct
    obtain ⟨present, later⟩ := ih distinct (Nat.succ.inj counted)
    have first : filesOf sourceDir (name :: names) (content :: rest) (sourcePath sourceDir name) =
        some content := by
      simp [filesOf]
    have others : ∀ other ∈ names, filesOf sourceDir (name :: names) (content :: rest)
        (sourcePath sourceDir other) = filesOf sourceDir names rest (sourcePath sourceDir other) := by
      intro other member
      have differs : sourcePath sourceDir name ≠ sourcePath sourceDir other :=
        fun same => fresh (sourcePath_injective sourceDir same ▸ member)
      simp [filesOf, differs]
    constructor
    · intro other member
      rcases List.mem_cons.mp member with rfl | member
      · rw [first]
        rfl
      · rw [others other member]
        exact present other member
    · rw [contentsAt, List.map_cons, first]
      congr 1
      calc (names.map fun other => (filesOf sourceDir (name :: names) (content :: rest)
              (sourcePath sourceDir other)).getD [])
          = contentsAt (filesOf sourceDir names rest) sourceDir names :=
            List.map_congr_left fun other member => by rw [others other member]
        _ = rest := later

def hashOf (sha256 : Bytes → Bytes) (files : SourceFiles) (remote : (op : RemoteOp) → op.Reply)
    (others : (op : LocalOp) → op.Reply) (sourceDir : String) : Outcome PyError String :=
  ((sourceHash sha256 sourceDir).execute (readsFrom files remote others) ()).1

theorem hashOf_complete (sha256 : Bytes → Bytes) {files : SourceFiles} {sourceDir : String}
    (remote : (op : RemoteOp) → op.Reply) (others : (op : LocalOp) → op.Reply)
    (complete : Complete files sourceDir) :
    hashOf sha256 files remote others sourceDir =
      .returned (fingerprint sha256 (contentsAt files sourceDir hashFiles)) := by
  rw [hashOf, execute_sourceHash sha256 complete]

theorem preimage_hashFiles {contents : List Bytes} (counted : contents.length = hashFiles.length) :
    preimage hashFiles contents = nameBytes "go.mod" ++
      0 :: (joined (hashFiles.tail.map fun next => marked 0 (nameBytes next)) contents ++ [0]) := by
  have split : hashFiles = "go.mod" :: hashFiles.tail := rfl
  have length : contents.length = hashFiles.tail.length + 1 := counted
  calc preimage hashFiles contents = preimage ("go.mod" :: hashFiles.tail) contents := by rw [← split]
    _ = _ := preimage_joined "go.mod" length

theorem fingerprint_eq_iff {sha256 : Bytes → Bytes} (noCollision : Function.Injective sha256)
    {first second : List Bytes} (counted : first.length = hashFiles.length)
    (alike : second.length = hashFiles.length) :
    fingerprint sha256 first = fingerprint sha256 second ↔
      joined (hashFiles.tail.map fun next => marked 0 (nameBytes next)) first =
        joined (hashFiles.tail.map fun next => marked 0 (nameBytes next)) second := by
  rw [fingerprint, fingerprint, preimage_hashFiles counted, preimage_hashFiles alike]
  constructor
  · intro same
    have texts := noCollision (hex_injective same)
    have bodies := (List.cons.inj (List.append_cancel_left texts)).2
    exact List.append_cancel_right bodies
  · intro same
    rw [same]

/-- A tree's hash differs from that of every other tree, and agrees with that of an equal one,
if and only if no file holds the mark that separates it from its neighbour. -/
theorem source_hash_determines_iff {sha256 : Bytes → Bytes}
    (noCollision : Function.Injective sha256) (remote : (op : RemoteOp) → op.Reply)
    (others : (op : LocalOp) → op.Reply) {files : SourceFiles} {sourceDir : String}
    (complete : Complete files sourceDir) :
    (∀ (files' : SourceFiles) (sourceDir' : String), Complete files' sourceDir' →
        (hashOf sha256 files remote others sourceDir = hashOf sha256 files' remote others sourceDir' ↔
          ∀ name ∈ hashFiles,
            files (sourcePath sourceDir name) = files' (sourcePath sourceDir' name))) ↔
      Unmarked hashFiles.tail (contentsAt files sourceDir hashFiles) := by
  have counted : ∀ f d, (contentsAt f d hashFiles).length = hashFiles.length := by
    simp [contentsAt]
  rw [← soleCuts_names fun name member => hashFiles_plain name (List.mem_of_mem_tail member),
    ← Delimited.joined_determines_iff (counted files sourceDir)]
  constructor
  · intro tells contents alike same
    have nodup : hashFiles.Nodup := by decide
    obtain ⟨present, held⟩ := contentsAt_filesOf sourceDir nodup
      (alike.trans (counted files sourceDir))
    have hashes : hashOf sha256 files remote others sourceDir =
        hashOf sha256 (filesOf sourceDir hashFiles contents) remote others sourceDir := by
      rw [hashOf_complete sha256 _ _ complete, hashOf_complete sha256 _ _ present, held,
        (fingerprint_eq_iff noCollision (counted files sourceDir)
          (alike.trans (counted files sourceDir))).mpr same]
    have files_eq := (tells _ sourceDir present).mp hashes
    rw [← held]
    exact List.map_congr_left fun name member => by rw [files_eq name member]
  · intro sole files' sourceDir' complete'
    rw [hashOf_complete sha256 _ _ complete, hashOf_complete sha256 _ _ complete',
      Outcome.returned.injEq,
      fingerprint_eq_iff noCollision (counted files sourceDir) (counted files' sourceDir')]
    constructor
    · intro same name member
      have contents := sole _ ((counted files' sourceDir').trans (counted files sourceDir).symm) same
      have alike := List.map_inj_left.mp contents name member
      obtain ⟨content, found⟩ := Option.isSome_iff_exists.mp (complete name member)
      obtain ⟨content', found'⟩ := Option.isSome_iff_exists.mp (complete' name member)
      simpa [found, found'] using alike
    · intro same
      have contents : contentsAt files sourceDir hashFiles = contentsAt files' sourceDir' hashFiles :=
        List.map_congr_left fun name member => by rw [same name member]
      rw [contents]

def treeOf (goMod mainGo : String) : SourceFiles :=
  filesOf "goservice" hashFiles
    [nameBytes goMod, nameBytes mainGo, nameBytes "crypto", nameBytes "inventory",
      nameBytes "manifest", nameBytes "view"]

theorem treeOf_complete (goMod mainGo : String) : Complete (treeOf goMod mainGo) "goservice" :=
  (contentsAt_filesOf "goservice" (by decide) rfl).1

def quietGuest : (op : RemoteOp) → op.Reply
  | .exec _ _ _ => .ok ⟨0, "", ""⟩
  | .openSftp => .ok ()
  | .sftpWrite _ _ => .ok ()
  | .sftpPut _ _ => .ok ()
  | .urandom count => List.replicate count 0
  | .getenv _ => none

def quietHost : (op : LocalOp) → op.Reply
  | .isFile _ => false
  | .readBytes _ => .ok []
  | .sha256File _ => .ok ""
  | .mkdirParents _ => .ok ()
  | .download _ _ => .ok ()
  | .unlink _ => .ok ()

def plainTree : SourceFiles :=
  treeOf "module inventory" "package main"

/-- SHA-256 on the tree of the example, and nothing like it elsewhere. -/
def treeSha256 (text : Bytes) : Bytes :=
  if text = preimage hashFiles (contentsAt plainTree "goservice" hashFiles) then
    [24, 137, 211, 193, 99, 71, 209, 111, 145, 115, 67, 254, 131, 129, 156, 41, 194, 182, 231,
      172, 153, 211, 158, 7, 202, 153, 95, 34, 42, 71, 34, 222]
  else 0 :: text

theorem treeSha256_injective : Function.Injective treeSha256 := by
  intro first second same
  unfold treeSha256 at same
  split_ifs at same <;> simp_all

theorem plain_tree_determined :
    (∀ (files' : SourceFiles) (sourceDir' : String), Complete files' sourceDir' →
        (hashOf treeSha256 plainTree quietGuest quietHost "goservice" =
            hashOf treeSha256 files' quietGuest quietHost sourceDir' ↔
          ∀ name ∈ hashFiles,
            plainTree (sourcePath "goservice" name) = files' (sourcePath sourceDir' name))) ↔
      Unmarked hashFiles.tail (contentsAt plainTree "goservice" hashFiles) :=
  source_hash_determines_iff treeSha256_injective quietGuest quietHost (treeOf_complete _ _)

/-- The mark in front of `main.go` may stand in `go.mod` as well. -/
theorem marked_trees_collide :
    treeOf "module" "a\x00main.go\x00b" (sourcePath "goservice" "go.mod") ≠
        treeOf "module\x00main.go\x00a" "b" (sourcePath "goservice" "go.mod") ∧
      ∀ sha256 : Bytes → Bytes,
        hashOf sha256 (treeOf "module" "a\x00main.go\x00b") quietGuest quietHost "goservice" =
          hashOf sha256 (treeOf "module\x00main.go\x00a" "b") quietGuest quietHost "goservice" := by
  have preimages : preimage hashFiles
        (contentsAt (treeOf "module" "a\x00main.go\x00b") "goservice" hashFiles) =
      preimage hashFiles
        (contentsAt (treeOf "module\x00main.go\x00a" "b") "goservice" hashFiles) := by
    rfl
  refine ⟨by decide, fun sha256 => ?_⟩
  rw [hashOf_complete sha256 _ _ (treeOf_complete _ _),
    hashOf_complete sha256 _ _ (treeOf_complete _ _), fingerprint, fingerprint, preimages]

end VmDeploy.Service
