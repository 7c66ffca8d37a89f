import VmDeploy.Service.Build

/-! Which bytes `install_go` extracts, over sequences of calls that share a cache.

The network delivers any bytes and may be cut off anywhere. `sha256sum -c` succeeds exactly
when the file of the guest matches. -/

set_option autoImplicit false

open Effects Python Shell

namespace VmDeploy.Service

open Remote

/-- The archives cached on the automation host, the files of the guest, what each upload was
made from and what each archive held when it was extracted. -/
structure Transit where
  cache : String → Option Bytes
  staged : String → Option Bytes
  uploaded : List (Option Bytes)
  extracted : List Bytes

/-- What a script does with an archive of the guest. -/
inductive Handling where
  | verify (sum path : String)
  | unpack (path : String)
  | discard (path : String)
  | other

def handlingOf : Script → Handling
  | .plain ⟨⟨_, ["printf", _, sum, path], _⟩, [(.pipe, ⟨_, ["sha256sum", "-c", "-"], _⟩)]⟩ =>
      .verify sum path
  | .plain ⟨⟨_, ["rm", "-f", path], _⟩, []⟩ => .discard path
  | .elevated _ ⟨⟨_, ["tar", "-C", "/usr/local", "-xzf", path], _⟩, []⟩ => .unpack path
  | _ => .other

/-- What a request over the network meets. -/
structure NetworkChoice where
  output : Output
  authorised : Bool
  lost : Option String
  delivered : Option Bytes
  transfer : Except String Unit
  random : Bytes
  env : Option String

/-- What a request to the automation host meets. A download that opened its file leaves
there what arrived. -/
structure HostChoice where
  fault : Option String
  cutOff : Option DownloadFault
  opened : Bool
  arrived : Bytes
  content : Except String Bytes

section Steps

variable (sha256 : Bytes → Bytes)

def Matches (pin : String) (content : Option Bytes) : Prop :=
  ∃ bytes, content = some bytes ∧ hex (sha256 bytes) = pin

instance (pin : String) (content : Option Bytes) : Decidable (Matches sha256 pin content) :=
  decidable_of_iff (content.any (fun bytes => hex (sha256 bytes) = pin) = true) (by
    cases content <;> simp [Matches])

def Output.failing (output : Output) : Output :=
  { output with exitStatus := if output.exitStatus = 0 then 1 else output.exitStatus }

def Transit.handle (x : NetworkChoice) (w : Transit) : Handling → Output × Transit
  | .verify sum path =>
      (if Matches sha256 sum (w.staged path) then { x.output with exitStatus := 0 }
        else Output.failing x.output, w)
  | .unpack path =>
      (x.output, if x.authorised then { w with extracted := w.extracted ++ (w.staged path).toList }
        else w)
  | .discard path =>
      (x.output, if x.output.exitStatus = 0 then
          { w with staged := Function.update w.staged path none }
        else w)
  | .other => (x.output, w)

def networkStep : Step remoteSignature Transit NetworkChoice
  | x, .exec script _ _, w =>
      let handled := w.handle sha256 x (handlingOf script)
      (match x.lost with
        | some exc => .error exc
        | none => .ok handled.1, handled.2)
  | x, .openSftp, w => (x.transfer, w)
  | x, .sftpWrite path _, w =>
      (x.transfer, { w with staged := Function.update w.staged path x.delivered })
  | x, .sftpPut localPath path, w =>
      (x.transfer, { w with
        staged := Function.update w.staged path x.delivered
        uploaded := w.uploaded ++ [w.cache localPath] })
  | x, .urandom _, w => (x.random, w)
  | x, .getenv _, w => (x.env, w)

def HostChoice.reply {A : Type} (x : HostChoice) (value : A) : Except String A :=
  match x.fault with
  | some exc => .error exc
  | none => .ok value

def cacheStep : Step localSignature Transit HostChoice
  | _, .isFile path, w => ((w.cache path).isSome, w)
  | x, .readBytes _, w => (x.content, w)
  | x, .sha256File path, w =>
      (match w.cache path with
        | some content => x.reply (hex (sha256 content))
        | none => .error s!"No such file or directory: {path}", w)
  | x, .mkdirParents _, w => (x.reply (), w)
  | x, .download _ destination, w =>
      match x.cutOff with
      | none => (.ok (), { w with cache := Function.update w.cache destination (some x.arrived) })
      | some fault => (.error fault, if x.opened then
          { w with cache := Function.update w.cache destination (some x.arrived) } else w)
  | x, .unlink path, w =>
      match x.fault with
      | some exc => (.error exc, w)
      | none => (.ok (), { w with cache := Function.update w.cache path none })

abbrev transitStep :
    Step (remoteSignature.sum localSignature) Transit (NetworkChoice × HostChoice) :=
  (networkStep sha256).sum (cacheStep sha256)

end Steps

section Fetch

variable {sha256 : Bytes → Bytes} {cacheDir : String} {build : BuildConfig} {w : Transit}

def archivePath (cacheDir : String) (build : BuildConfig) : String :=
  s!"{cacheDir}/{archiveName build}"

def mismatch (build : BuildConfig) (actual : String) : PyError :=
  .vmDeployError (s!"Downloaded Go archive {archiveName build} has SHA-256 {actual}, " ++
    s!"expected {build.goSha256}; refusing a toolchain that may be corrupted or substituted")

def Transit.Unused (w after : Transit) : Prop :=
  after.uploaded = w.uploaded ∧ after.extracted = w.extracted

def Fetched (sha256 : Bytes → Bytes) (cacheDir : String) (build : BuildConfig) (w : Transit) : Prop :=
  Matches sha256 build.goSha256 (w.cache (archivePath cacheDir build))

theorem reply_ok {A : Type} {x : HostChoice} {value found : A} (ok : x.reply value = .ok found) :
    found = value := by
  unfold HostChoice.reply at ok
  cases fault : x.fault with
  | some exc => simp [fault] at ok
  | none => simpa [fault, eq_comm] using ok

/-- An error that says the download does not match leaves no file behind. -/
def Cleared (cacheDir : String) (build : BuildConfig) (error : PyError) (after : Transit) : Prop :=
  ∀ actual, error = mismatch build actual → after.cache (archivePath cacheDir build) = none

/-- How a fetch ends: with the pinned archive, or with an error after which the cache is clear. -/
def FetchEnding (sha256 : Bytes → Bytes) (cacheDir : String) (build : BuildConfig) (w : Transit)
    {A : Type} (outcome : Outcome PyError A) (after : Transit) : Prop :=
  w.Unused after ∧ Concludes (fun _ after => Fetched sha256 cacheDir build after)
    (Cleared cacheDir build) outcome after

def Unrelated (build : BuildConfig) (error : PyError) : Prop :=
  ∀ actual, error ≠ mismatch build actual

theorem Unrelated.cleared {error : PyError} (unrelated : Unrelated build error) (w : Transit) :
    Cleared cacheDir build error w :=
  fun actual same => absurd same (unrelated actual)

theorem cleared_osError (message : String) : Cleared cacheDir build (.osError message) w :=
  nofun

variable {A : Type} {post : Outcome PyError A → Transit → Prop}

-- A request to the automation host that may fail, and what follows it.
theorem always_hashed {path : String} {rest : String → ServiceProg A} (stops : post .stopped w)
    (fails : ∀ message, post (.raised (.osError message)) w)
    (continues : ∀ actual, Matches sha256 actual (w.cache path) →
      Always (transitStep sha256) (rest actual) w post) :
    Always (transitStep sha256)
      ((askLocal (.sha256File path)).bind fun reply => (orOsError reply).bind rest) w post := by
  refine always_call stops fun x => ?_
  simp only [transitStep, Step.sum, cacheStep]
  cases present : w.cache path with
  | none => exact always_raise (fails _)
  | some content =>
    dsimp only
    cases known : x.2.reply (hex (sha256 content)) with
    | error exc => exact always_raise (fails _)
    | ok actual =>
      refine continues actual ?_
      rw [present, reply_ok known]
      exact ⟨content, rfl, rfl⟩

theorem fetchEnding_checkArchive {start : Transit} (unused : start.Unused w) :
    Always (transitStep sha256) (checkArchive build (archivePath cacheDir build)) w
      (FetchEnding sha256 cacheDir build start) := by
  refine always_hashed ⟨unused, trivial⟩ (fun _ => ⟨unused, cleared_osError _⟩) ?_
  intro actual found
  split
  · next same =>
    rw [same] at found
    exact always_done ⟨unused, found⟩
  · refine always_call ⟨unused, trivial⟩ fun x => ?_
    simp only [transitStep, Step.sum, cacheStep]
    cases x.2.fault with
    | some exc => exact always_raise ⟨unused, cleared_osError _⟩
    | none =>
      refine always_raise ⟨unused, fun _ _ => ?_⟩
      exact Function.update_self _ _ _

theorem head_append {first : String} {c : Char} (rest : String)
    (head : first.toList.head? = some c) : (first ++ rest).toList.head? = some c := by
  rw [String.toList_append, List.head?_append, head]
  rfl

-- An error whose text begins with another letter.
theorem unrelated_of_head {text : String} {c : Char} (head : text.toList.head? = some c)
    (other : c ≠ 'D') : Unrelated build (.vmDeployError text) := by
  intro actual same
  have text_eq := PyError.vmDeployError.inj same
  have downloaded : text.toList.head? = some 'D' := by
    rw [text_eq]
    apply head_append
    repeat apply head_append
    rfl
  rw [head, Option.some.injEq] at downloaded
  exact absurd downloaded other

theorem fetchEnding_downloadArchive {start : Transit} (unused : start.Unused w) :
    Always (transitStep sha256) (downloadArchive cacheDir build (archivePath cacheDir build)) w
      (FetchEnding sha256 cacheDir build start) := by
  refine always_call ⟨unused, trivial⟩ fun x => ?_
  simp only [transitStep, Step.sum, cacheStep]
  cases x.2.reply () with
  | error exc => exact always_raise ⟨unused, cleared_osError _⟩
  | ok _ =>
    refine always_call ⟨unused, trivial⟩ fun y => ?_
    simp only [Step.sum, cacheStep]
    cases y.2.cutOff with
    | none => exact fetchEnding_checkArchive unused
    | some fault =>
      have kept : start.Unused (if y.2.opened then
          { w with cache := Function.update w.cache (archivePath cacheDir build) (some y.2.arrived) }
          else w) := by
        split <;> exact unused
      cases fault with
      | osError exc => exact always_raise ⟨kept, cleared_osError _⟩
      | requestException exc =>
        refine always_raise ⟨kept, Unrelated.cleared (unrelated_of_head (c := 'F') ?_ (by decide)) _⟩
        repeat apply head_append
        rfl

def FetchReturns (sha256 : Bytes → Bytes) (cacheDir : String) (build : BuildConfig) (w : Transit)
    (outcome : Outcome PyError String) (after : Transit) : Prop :=
  FetchEnding sha256 cacheDir build w outcome after ∧
    ∀ path, outcome = .returned path → path = archivePath cacheDir build

theorem fetchReturns_download :
    Always (transitStep sha256)
      ((downloadArchive cacheDir build (archivePath cacheDir build)).bind fun _ =>
        .done (archivePath cacheDir build)) w (FetchReturns sha256 cacheDir build w) := by
  refine always_bind (Always.mono (fetchEnding_downloadArchive ⟨rfl, rfl⟩) ?_)
  intro outcome after ended
  cases outcome with
  | returned value => exact always_done ⟨ended, fun path same => (Outcome.returned.inj same).symm⟩
  | raised error => exact ⟨ended, nofun⟩
  | stopped => exact ⟨ended, nofun⟩

theorem fetchReturns_fetch :
    Always (transitStep sha256) (fetchGoArchiveToHost cacheDir build) w
      (FetchReturns sha256 cacheDir build w) := by
  have unused : w.Unused w := ⟨rfl, rfl⟩
  have stops : FetchReturns sha256 cacheDir build w .stopped w := ⟨⟨unused, trivial⟩, nofun⟩
  refine always_call stops fun x => ?_
  simp only [transitStep, Step.sum, cacheStep]
  cases (w.cache s!"{cacheDir}/{archiveName build}").isSome with
  | false => exact fetchReturns_download
  | true =>
    refine always_hashed stops (fun _ => ⟨⟨unused, cleared_osError _⟩, nofun⟩) ?_
    intro cached found
    split
    · next same =>
      rw [same] at found
      exact always_done ⟨⟨unused, found⟩, fun path same => (Outcome.returned.inj same).symm⟩
    · exact fetchReturns_download

end Fetch

section Install

variable {sha256 : Bytes → Bytes} {cacheDir : String} {host : RemoteHost} {build : BuildConfig}
  {w : Transit} {A : Type}

def Pinned (sha256 : Bytes → Bytes) (build : BuildConfig) (w : Transit) : Prop :=
  (∀ archive ∈ w.uploaded, Matches sha256 build.goSha256 archive) ∧
    ∀ bytes ∈ w.extracted, hex (sha256 bytes) = build.goSha256

def Handles (allowed : Handling → Prop) : RemoteOp → Prop
  | .exec script _ _ => allowed (handlingOf script)
  | .sftpWrite _ _ | .sftpPut _ _ => False
  | _ => True

theorem upholds_handles {allowed : Handling → Prop} {inv : Transit → Prop} {p : RemoteProg A}
    (only : p.Only (Handles allowed)) (held : inv w)
    (keeps : ∀ x handling w, allowed handling → inv w → inv (w.handle sha256 x handling).2) :
    Upholds (transitStep sha256) (onGuest p) w inv (fun _ _ => True) := by
  have kept : Upholds (networkStep sha256) p w inv (fun _ _ => True) := by
    refine upholds_only only held ?_
    intro x op later handles here
    cases op with
    | exec script stdin timeout => exact keeps x _ later handles here
    | sftpWrite | sftpPut => exact handles.elim
    | _ => exact here
  exact always_liftLeft kept

def Packed : Handling → Prop
  | .unpack _ => False
  | _ => True

theorem pinned_handle (x : NetworkChoice) (handling : Handling) (w : Transit)
    (packed : Packed handling) (pinned : Pinned sha256 build w) :
    Pinned sha256 build (w.handle sha256 x handling).2 := by
  cases handling with
  | verify | other => exact pinned
  | unpack path => exact packed.elim
  | discard path =>
    simp only [Transit.handle]
    split <;> exact pinned

theorem upholds_packed {line : Line} (packed : Packed (handlingOf (.plain line)))
    (pinned : Pinned sha256 build w) :
    Upholds (transitStep sha256) (onGuest (host.run (.plain line) false none)) w
      (Pinned sha256 build) (fun _ _ => True) := by
  have handles : (host.run (.plain line) false none).Only (Handles Packed) :=
    run_only fun _ => packed
  exact upholds_handles handles pinned pinned_handle

-- What is uploaded is what the cache holds.
theorem upholds_uploadArchive {localArchive tmp : String} (pinned : Pinned sha256 build w)
    (fetched : Matches sha256 build.goSha256 (w.cache localArchive)) :
    Upholds (transitStep sha256) (uploadArchive host localArchive tmp) w (Pinned sha256 build)
      (fun _ _ => True) := by
  refine upholds_call pinned fun x => ?_
  simp only [transitStep, Step.sum, networkStep]
  cases x.1.transfer with
  | error exc => exact upholds_raise pinned
  | ok _ =>
    refine upholds_call pinned fun y => ?_
    simp only [Step.sum, networkStep]
    have uploads : ∀ archive ∈ w.uploaded ++ [w.cache localArchive],
        Matches sha256 build.goSha256 archive := by
      intro archive member
      rcases List.mem_append.mp member with old | new
      · exact pinned.1 archive old
      · rw [List.mem_singleton.mp new]
        exact fetched
    cases y.1.transfer with
    | error exc => exact upholds_raise ⟨uploads, pinned.2⟩
    | ok _ => exact upholds_done ⟨uploads, pinned.2⟩ trivial

-- The check on the guest succeeds only with the pinned archive.
theorem upholds_checksum {tmp : String} (pinned : Pinned sha256 build w) :
    Upholds (transitStep sha256) (onGuest (host.run (.plain (checksumLine build tmp)) false none)) w
      (Pinned sha256 build)
      (fun check after => check.ok = true → Matches sha256 build.goSha256 (after.staged tmp)) := by
  refine upholds_call pinned fun x => ?_
  have verifies : handlingOf (.plain (checksumLine build tmp)) = .verify build.goSha256 tmp := rfl
  simp only [transitStep, Step.sum, networkStep, verifies, Transit.handle]
  cases x.1.lost with
  | some exc => exact upholds_raise pinned
  | none =>
    refine upholds_done pinned fun ok => ?_
    by_contra differs
    rw [if_neg differs, ok_of_iff] at ok
    simp only [Output.failing] at ok
    split at ok <;> omega

-- With the pinned archive in place, unpacking extracts nothing else.
theorem upholds_unpackGo {tmp : String} (pinned : Pinned sha256 build w)
    (staged : Matches sha256 build.goSha256 (w.staged tmp)) :
    Upholds (transitStep sha256) (onGuest (sudoAll host (unpackGo tmp))) w (Pinned sha256 build)
      (fun _ _ => True) := by
  have handled : (sudoAll host (unpackGo tmp)).Only
      (Handles fun handling => handling = .other ∨ handling = .unpack tmp) := by
    refine sudoAll_only trivial ?_
    intro line member mode stdin seconds
    simp only [unpackGo, List.mem_cons, List.not_mem_nil, or_false] at member
    rcases member with rfl | rfl | rfl | rfl
    · exact .inl rfl
    · exact .inr rfl
    · exact .inl rfl
    · exact .inl rfl
  have kept : Upholds (transitStep sha256) (onGuest (sudoAll host (unpackGo tmp))) w
      (fun after => Pinned sha256 build after ∧ Matches sha256 build.goSha256 (after.staged tmp))
      (fun _ _ => True) := by
    refine upholds_handles handled ⟨pinned, staged⟩ ?_
    rintro x handling after (rfl | rfl) ⟨held, there⟩
    · exact ⟨held, there⟩
    · simp only [Transit.handle]
      split
      · refine ⟨⟨held.1, ?_⟩, there⟩
        intro bytes member
        rcases List.mem_append.mp member with old | new
        · exact held.2 bytes old
        · obtain ⟨found, same, hashes⟩ := there
          rw [same, Option.toList_some] at new
          rw [List.mem_singleton.mp new]
          exact hashes
      · exact ⟨held, there⟩
  exact kept.mono (fun _ both => both.1) (fun _ _ _ _ => trivial)

theorem upholds_installGo (pinned : Pinned sha256 build w) :
    Upholds (transitStep sha256) (installGo cacheDir host build) w (Pinned sha256 build)
      (fun _ _ => True) := by
  refine upholds_bind (upholds_packed trivial pinned) ?_
  intro current after pinned _
  split
  · exact upholds_done pinned trivial
  · have fetches : Upholds (transitStep sha256) (fetchGoArchiveToHost cacheDir build) after
        (Pinned sha256 build)
        (fun path later => Matches sha256 build.goSha256 (later.cache path)) := by
      refine Always.mono fetchReturns_fetch ?_
      rintro outcome later ⟨⟨⟨uploaded, extracted⟩, ended⟩, returned⟩
      refine ⟨?_, ?_⟩
      · unfold Pinned
        rw [uploaded, extracted]
        exact pinned
      · rintro path rfl
        rw [returned path rfl]
        exact ended
    refine upholds_bind fetches ?_
    intro localArchive after pinned fetched
    refine upholds_bind (upholds_uploadArchive pinned fetched) ?_
    intro _ after pinned _
    refine upholds_bind (upholds_checksum pinned) ?_
    intro check after pinned verified
    split
    · refine upholds_bind (upholds_packed trivial pinned) ?_
      exact fun _ _ pinned _ => upholds_raise pinned
    · next passed =>
      refine upholds_bind (upholds_unpackGo pinned (verified (by simpa using passed))) ?_
      intro _ after pinned _
      refine upholds_bind (upholds_packed trivial pinned) ?_
      intro _ after pinned _
      refine upholds_bind (upholds_packed trivial pinned) ?_
      intro version after pinned _
      split
      · exact upholds_done pinned trivial
      · exact upholds_raise pinned

theorem session_unrelated : SessionErrors (Unrelated build) where
  lost _ := nofun
  failed _ _ _ _ := nofun

theorem run_concludes {line : Line} :
    Always (transitStep sha256) (onGuest (host.run (.plain line) false none)) w
      (Concludes (fun _ _ => True) (Cleared cacheDir build)) :=
  concludes_raises (Prog.raises_liftLeft (run_raises session_unrelated))
    fun _ after unrelated => unrelated.cleared after

theorem sudoAll_raises {lines : List Line} {P : PyError → Prop} (session : SessionErrors P) :
    (sudoAll host lines).Raises P := by
  induction lines with
  | nil => trivial
  | cons line rest ih => exact Prog.Raises.bind (sudo_raises session) fun _ => ih

theorem failed_unrelated (exc : String) : Unrelated build (uploadArchive.failed host exc) := by
  refine unrelated_of_head (c := 'F') ?_ (by decide)
  repeat apply head_append
  rfl

theorem uploadArchive_raises {localArchive tmp : String} :
    (uploadArchive host localArchive tmp).Raises (Unrelated build) := by
  intro opened
  cases opened with
  | error exc => exact failed_unrelated _
  | ok _ =>
    intro stored
    cases stored with
    | error exc => exact failed_unrelated _
    | ok _ => trivial

theorem concludes_installGo :
    Always (transitStep sha256) (installGo cacheDir host build) w
      (Concludes (fun _ _ => True) (Cleared cacheDir build)) := by
  refine concludes_bind run_concludes ?_
  intro current after _
  split
  · exact always_done trivial
  · have fetches : Always (transitStep sha256) (fetchGoArchiveToHost cacheDir build) after
        (Concludes (fun _ _ => True) (Cleared cacheDir build)) := by
      refine Always.mono fetchReturns_fetch ?_
      rintro outcome later ⟨⟨_, ended⟩, _⟩
      cases outcome with
      | returned path => trivial
      | raised error => exact ended
      | stopped => trivial
    refine concludes_bind fetches ?_
    intro localArchive after _
    refine concludes_bind (concludes_raises uploadArchive_raises
      fun _ after unrelated => unrelated.cleared after) ?_
    intro _ after _
    refine concludes_bind run_concludes ?_
    intro check after _
    split
    · refine concludes_bind run_concludes ?_
      intro _ after _
      refine always_raise (Unrelated.cleared (unrelated_of_head (c := 'G') ?_ (by decide)) _)
      repeat apply head_append
      rfl
    · refine concludes_bind (concludes_raises (Prog.raises_liftLeft (sudoAll_raises session_unrelated))
        fun _ after unrelated => unrelated.cleared after) ?_
      intro _ after _
      refine concludes_bind run_concludes ?_
      intro _ after _
      refine concludes_bind run_concludes ?_
      intro version after _
      split
      · exact always_done trivial
      · refine always_raise (Unrelated.cleared (unrelated_of_head (c := 'P') ?_ (by decide)) _)
        repeat apply head_append
        rfl

end Install

section Sequences

variable (sha256 : Bytes → Bytes) (cacheDir : String)

/-- One call: its guest with the files there, its pin, and what it meets. -/
structure InstallCall where
  host : RemoteHost
  build : BuildConfig
  staged : String → Option Bytes
  script : List (NetworkChoice × HostChoice)

def InstallCall.run (call : InstallCall) (cache : String → Option Bytes) :
    Outcome PyError String × Transit :=
  (installGo cacheDir call.host call.build).eval (transitStep sha256) ⟨cache, call.staged, [], []⟩
    call.script

/-- Only the pinned archive is uploaded and extracted, and a call that raises because its
download does not match leaves no archive in the cache. -/
def InstallCall.Safe (call : InstallCall) (cache : String → Option Bytes) : Prop :=
  Pinned sha256 call.build (call.run sha256 cacheDir cache).2 ∧
    ∀ actual, (call.run sha256 cacheDir cache).1 = .raised (mismatch call.build actual) →
      (call.run sha256 cacheDir cache).2.cache (archivePath cacheDir call.build) = none

def EachSafe : List InstallCall → (String → Option Bytes) → Prop
  | [], _ => True
  | call :: calls, cache =>
      call.Safe sha256 cacheDir cache ∧ EachSafe calls (call.run sha256 cacheDir cache).2.cache

variable {sha256} {cacheDir}

theorem safe_call (call : InstallCall) (cache : String → Option Bytes) :
    call.Safe sha256 cacheDir cache := by
  have pinned : Pinned sha256 call.build ⟨cache, call.staged, [], []⟩ := by
    simp [Pinned]
  refine ⟨(upholds_installGo pinned call.script).1, fun actual raised => ?_⟩
  have ended : Concludes (fun _ _ => True) (Cleared cacheDir call.build)
      (call.run sha256 cacheDir cache).1 (call.run sha256 cacheDir cache).2 :=
    concludes_installGo call.script
  rw [raised] at ended
  exact ended actual rfl

end Sequences

/-- Whatever the cache holds and the network delivers, every fetch returns the pinned archive
and no call extracts another. -/
theorem go_archives_are_pinned (sha256 : Bytes → Bytes) (cacheDir : String) :
    (∀ calls cache, EachSafe sha256 cacheDir calls cache) ∧
    ∀ build w, Always (transitStep sha256) (fetchGoArchiveToHost cacheDir build) w
      (fun outcome after => ∀ path, outcome = .returned path →
        Matches sha256 build.goSha256 (after.cache path)) := by
  constructor
  · intro calls
    induction calls with
    | nil => exact fun _ => trivial
    | cons call calls ih => exact fun cache => ⟨safe_call call cache, ih _⟩
  · intro build w
    refine Always.mono fetchReturns_fetch ?_
    rintro outcome after ⟨⟨_, ended⟩, returned⟩ path rfl
    rw [returned path rfl]
    exact ended

end VmDeploy.Service
