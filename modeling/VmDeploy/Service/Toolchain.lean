import Mathlib.Data.List.TakeWhile
import VmDeploy.Service.Build

/-! Which toolchains `install_go` takes for the pinned one. -/

set_option autoImplicit false

open Effects Python Shell

namespace VmDeploy.Service

open Remote

/-- The third word of what `go version` prints. -/
def versionWord (stdout : Text) : Option Text :=
  (splitWords stdout)[2]?

def goPrefix : Text :=
  "go version go".toList

theorem goPrefix_eq : goPrefix = 'g' :: "o version go".toList :=
  rfl

/-- The toolchain runs, and calls itself exactly this release. -/
def Reports (version : String) (output : Output) : Prop :=
  output.exitStatus = 0 ∧ versionWord output.stdout.toList = some ("go".toList ++ version.toList)

/-- Behind the text that is looked for the output goes on with its word, or that text ends
within the pinned version. -/
def Extends (build : BuildConfig) (output : Output) : Prop :=
  output.exitStatus = 0 ∧ ∃ more,
    strip output.stdout.toList = wantedVersion build ++ more ∧
      ((∃ c ∈ build.goVersion.toList, isSpace c = true) ∨ ∃ c ∈ more.head?, isSpace c = false)

section Words

theorem splitWordsFrom_blank {lead : Text} (blank : ∀ c ∈ lead, isSpace c = true) (text : Text) :
    splitWordsFrom [] (lead ++ text) = splitWordsFrom [] text := by
  induction lead with
  | nil => rfl
  | cons c lead ih =>
    rw [List.forall_mem_cons] at blank
    simp [splitWordsFrom, blank.1, ih blank.2]

theorem head_splitWordsFrom {word : Text} (begun : word ≠ []) (text : Text) :
    (splitWordsFrom word text)[0]? = some (word ++ text.takeWhile fun c => !isSpace c) := by
  induction text generalizing word with
  | nil => simp [splitWordsFrom, begun]
  | cons c rest ih =>
    cases space : isSpace c with
    | true => simp [splitWordsFrom, space, begun]
    | false => simp [splitWordsFrom, space, ih]

theorem strip_pads (text : Text) : ∃ lead trail, text = lead ++ (strip text ++ trail) ∧
    (∀ c ∈ lead, isSpace c = true) ∧ ∀ c ∈ trail, isSpace c = true := by
  refine ⟨text.takeWhile isSpace, ((text.dropWhile isSpace).reverse.takeWhile isSpace).reverse,
    ?_, ?_, ?_⟩
  · rw [strip, stripBy, ← List.reverse_append, List.takeWhile_append_dropWhile,
      List.reverse_reverse, List.takeWhile_append_dropWhile]
  · exact fun c member => List.mem_takeWhile_imp member
  · exact fun c member => List.mem_takeWhile_imp (List.mem_reverse.mp member)

-- The third word, when the first two and the start of the third are as wanted.
theorem versionWord_of_strip {stdout rest : Text} (strips : strip stdout = goPrefix ++ rest) :
    ∃ trail, (∀ c ∈ trail, isSpace c = true) ∧
      versionWord stdout = some ("go".toList ++ (rest ++ trail).takeWhile fun c => !isSpace c) := by
  obtain ⟨lead, trail, text, blank, last⟩ := strip_pads stdout
  refine ⟨trail, last, ?_⟩
  have words : splitWords stdout =
      "go".toList :: "version".toList :: splitWordsFrom "go".toList (rest ++ trail) := by
    rw [text, splitWords, splitWordsFrom_blank blank, strips, List.append_assoc]
    rfl
  rw [versionWord, words]
  exact head_splitWordsFrom (by decide) _

theorem dropWhile_visible {c : Char} {text : Text} (visible : isSpace c = false) :
    (c :: text).dropWhile isSpace = c :: text :=
  List.dropWhile_cons_of_neg (by simp [visible])

-- The text that is looked for, for a version without white space in it.
theorem wantedVersion_eq {build : BuildConfig}
    (solid : ∀ c ∈ build.goVersion.toList, isSpace c = false) :
    wantedVersion build = goPrefix ++ build.goVersion.toList := by
  have text : (s!"go version go{build.goVersion} ").toList =
      goPrefix ++ build.goVersion.toList ++ [' '] := by
    rw [show s!"go version go{build.goVersion} " = "go version go" ++ build.goVersion ++ " " from rfl,
      String.toList_append, String.toList_append]
    rfl
  have last : ((goPrefix ++ build.goVersion.toList).reverse).dropWhile isSpace =
      (goPrefix ++ build.goVersion.toList).reverse := by
    rw [List.reverse_append]
    cases ends : build.goVersion.toList.reverse with
    | nil => rfl
    | cons c more =>
      exact dropWhile_visible (solid c (List.mem_reverse.mp (ends ▸ List.mem_cons_self)))
  have first : (goPrefix ++ build.goVersion.toList ++ [' ']).dropWhile isSpace =
      goPrefix ++ build.goVersion.toList ++ [' '] := by
    rw [goPrefix_eq, List.cons_append, List.cons_append]
    exact dropWhile_visible rfl
  rw [wantedVersion, text, strip, stripBy, first, List.reverse_append, List.reverse_singleton,
    List.singleton_append, List.dropWhile_cons_of_pos rfl, last, List.reverse_reverse]

theorem splitWordsFrom_visible {word text : Text} (solid : ∀ c ∈ word, isSpace c = false) :
    ∀ found ∈ splitWordsFrom word text, ∀ c ∈ found, isSpace c = false := by
  induction text generalizing word with
  | nil =>
    intro found member
    cases word with
    | nil => cases member
    | cons c word =>
      rw [List.mem_singleton.mp member]
      exact solid
  | cons c rest ih =>
    have later := @ih [] (fun _ none => absurd none List.not_mem_nil)
    cases space : isSpace c with
    | true =>
      cases word with
      | nil => simpa [splitWordsFrom, space] using later
      | cons d word =>
        rw [splitWordsFrom, if_pos space, if_neg (by simp), List.forall_mem_cons]
        exact ⟨solid, later⟩
    | false =>
      rw [splitWordsFrom, if_neg (by simp [space])]
      refine ih (fun d member => ?_)
      rcases List.mem_append.mp member with old | new
      · exact solid d old
      · rw [List.mem_singleton.mp new, space]

theorem takeWhile_eq_nil_iff {more trail : Text} (blank : ∀ c ∈ trail, isSpace c = true) :
    ((more ++ trail).takeWhile fun c => !isSpace c) = [] ↔ ¬ ∃ c ∈ more.head?, isSpace c = false := by
  cases more with
  | nil =>
    cases trail with
    | nil => simp
    | cons c trail => simp [blank c List.mem_cons_self]
  | cons c more => simp

-- Of the outputs that are taken for the pinned release, those that extend it are not.
theorem reports_iff {build : BuildConfig} {output : Output} {more : Text}
    (exited : output.exitStatus = 0)
    (strips : strip output.stdout.toList = wantedVersion build ++ more) :
    Reports build.goVersion output ↔ ¬ Extends build output := by
  by_cases solid : ∀ c ∈ build.goVersion.toList, isSpace c = false
  · have visible : ∀ c ∈ build.goVersion.toList, (!isSpace c) = true := by
      simpa using solid
    have extends_iff : Extends build output ↔ ∃ c ∈ more.head?, isSpace c = false := by
      constructor
      · rintro ⟨-, other, same, ⟨c, member, blank⟩ | ends⟩
        · rw [solid c member] at blank
          cases blank
        · rw [strips, List.append_cancel_left_eq] at same
          rw [same]
          exact ends
      · exact fun ends => ⟨exited, more, strips, .inr ends⟩
    rw [wantedVersion_eq solid, List.append_assoc] at strips
    obtain ⟨trail, blank, word⟩ := versionWord_of_strip strips
    rw [List.append_assoc, List.takeWhile_append_of_pos visible] at word
    rw [extends_iff, ← takeWhile_eq_nil_iff blank, Reports, and_iff_right exited, word,
      Option.some.injEq, List.append_cancel_left_eq, List.append_right_eq_self]
  · push Not at solid
    obtain ⟨c, member, blank⟩ := solid
    rw [ne_eq, Bool.not_eq_false] at blank
    refine iff_of_false ?_ (not_not.mpr ⟨exited, more, strips, .inl ⟨c, member, blank⟩⟩)
    rintro ⟨-, word⟩
    have visible := splitWordsFrom_visible (fun _ none => absurd none List.not_mem_nil)
      _ (List.mem_of_getElem? word) c (List.mem_append_right _ member)
    rw [blank] at visible
    cases visible

end Words

/-- What `go version` printed each time, and whether anything else was asked of the guest or
of the host. -/
structure Seen where
  reports : List Output
  installs : Bool

def asksVersion (script : Script) : Bool :=
  script = .plain goVersionLine || script = .plain (program ["go", "version"])

abbrev Replies :=
  (op : (remoteSignature.sum localSignature).Op) → (remoteSignature.sum localSignature).Reply op

def Seen.ask (x : Replies) (seen : Seen) : (remoteSignature.sum localSignature).Op → Seen
  | .inl (.exec script stdin timeout) =>
      if asksVersion script then
        match x (.inl (.exec script stdin timeout)) with
        | .ok output => { seen with reports := seen.reports ++ [output] }
        | .error _ => seen
      else { seen with installs := true }
  | _ => { seen with installs := true }

def versionStep : Step (remoteSignature.sum localSignature) Seen Replies :=
  fun x op seen => (x op, seen.ask x op)

def unseen : Seen :=
  ⟨[], false⟩

/-- The call returns only with the pinned release, and skips the installation only with the
pinned release. -/
def PinnedOnly (build : BuildConfig) (outcome : Outcome PyError String) (after : Seen) : Prop :=
  ∀ version, outcome = .returned version →
    (∃ last, after.reports.getLast? = some last ∧ Reports build.goVersion last) ∧
    (after.installs = false →
      ∃ first, after.reports.head? = some first ∧ Reports build.goVersion first)

def NoneExtends (build : BuildConfig) (after : Seen) : Prop :=
  ∀ output ∈ after.reports, ¬ Extends build output

section Runs

variable {build : BuildConfig} {host : RemoteHost} {cacheDir : String} {seen : Seen} {A : Type}

def Accepts (build : BuildConfig) (output : Output) : Prop :=
  output.exitStatus = 0 ∧ ∃ more, strip output.stdout.toList = wantedVersion build ++ more

theorem accepts_iff (command : String) (output : Output) :
    reportsWanted build (.of command output) = true ↔ Accepts build output := by
  simp [reportsWanted, Accepts, CommandResult.of, CommandResult.ok, Option.isSome_iff_exists,
    afterPrefix?_eq_some]

def Seen.Refused (build : BuildConfig) (seen : Seen) : Prop :=
  ∀ output ∈ seen.reports, ¬ Accepts build output

def Seen.Accepted (build : BuildConfig) (seen : Seen) : Prop :=
  ∃ before last, seen.reports = before ++ [last] ∧ Accepts build last ∧
    (∀ output ∈ before, ¬ Accepts build output) ∧ (seen.installs = false → before = [])

abbrev Unversioned : (remoteSignature.sum localSignature).Op → Prop :=
  Sum.elim (fun op => ∀ script stdin timeout, op = .exec script stdin timeout →
    asksVersion script = false) (fun _ => True)

theorem refused_only {p : ServiceProg A} (only : p.Only Unversioned) (refused : seen.Refused build)
    (installs : seen.installs = true) :
    Always versionStep p seen (Ends (Seen.Refused build) fun _ after =>
      after.Refused build ∧ after.installs = true) := by
  have kept : Always versionStep p seen (fun _ after =>
      after.reports = seen.reports ∧ (seen.installs = true → after.installs = true)) := by
    refine always_only (fun before after => after.reports = before.reports ∧
      (before.installs = true → after.installs = true)) seen only (fun _ => ⟨rfl, id⟩) ?_ ?_
    · exact fun _ _ _ first second => ⟨second.1.trans first.1, fun yes => second.2 (first.2 yes)⟩
    · intro x op before plain
      cases op with
      | inr op => exact ⟨rfl, fun _ => rfl⟩
      | inl op =>
        cases op with
        | exec script stdin timeout =>
          simp [versionStep, Seen.ask, plain script stdin timeout rfl]
        | _ => exact ⟨rfl, fun _ => rfl⟩
  refine Always.mono kept ?_
  rintro outcome after ⟨same, sticks⟩
  have still : after.Refused build := by
    unfold Seen.Refused
    rw [same]
    exact refused
  cases outcome with
  | returned value => exact ⟨still, sticks installs⟩
  | raised error => exact still
  | stopped => exact still

theorem ends_version {line : Line} (asks : asksVersion (.plain line) = true)
    (refused : seen.Refused build) :
    Always versionStep (onGuest (host.run (.plain line) false none)) seen
      (Ends (Seen.Refused build) fun result after => ∃ output, result = .of line.text output ∧
        after = { seen with reports := seen.reports ++ [output] }) := by
  refine always_call refused ?_
  intro x
  simp only [versionStep, Seen.ask, asks, if_true]
  cases x (.inl (.exec (.plain line) none (host.effectiveTimeout none))) with
  | error exc => exact always_raise refused
  | ok output =>
    refine always_done ?_
    exact ⟨output, rfl, rfl⟩

theorem refused_append {output : Output} (refused : seen.Refused build)
    (other : ¬ Accepts build output) :
    Seen.Refused build { seen with reports := seen.reports ++ [output] } := by
  intro found member
  rcases List.mem_append.mp member with old | new
  · exact refused found old
  · rw [List.mem_singleton.mp new]
    exact other

theorem run_unversioned {line : Line} (other : asksVersion (.plain line) = false) :
    (onGuest (host.run (.plain line) false none)).Only Unversioned := by
  refine Prog.only_liftLeft (I := remoteSignature) (run_only fun seconds => ?_)
  intro script stdin timeout same
  cases same
  exact other

theorem sudoAll_unversioned (lines : List Line) :
    (onGuest (sudoAll host lines)).Only Unversioned := by
  refine Prog.only_liftLeft (I := remoteSignature) (sudoAll_only nofun fun line _ mode stdin seconds => ?_)
  intro script input timeout same
  cases same
  simp [asksVersion]

theorem ends_fetch (refused : seen.Refused build) :
    Always versionStep (fetchGoArchiveToHost cacheDir build) seen
      (Ends (Seen.Refused build) fun _ after => after.Refused build ∧ after.installs = true) := by
  have only : (fetchGoArchiveToHost cacheDir build).Only Unversioned :=
    fetchGoArchiveToHost_only cacheDir build fun _ _ => trivial
  refine always_call refused ?_
  intro x
  exact refused_only (only.2 _) refused rfl

-- A run returns on the first output that is accepted.
theorem ends_installGo : Always versionStep (installGo cacheDir host build) unseen
    (Ends (Seen.Refused build) fun _ after => after.Accepted build) := by
  have none : unseen.Refused build := fun output member => absurd member List.not_mem_nil
  apply ends_bind (ends_version (by decide) none)
  rintro _ after ⟨first, rfl, rfl⟩
  split
  · next wanted =>
    exact always_done ⟨[], first, rfl, (accepts_iff _ _).mp wanted, fun _ member =>
      absurd member List.not_mem_nil, fun _ => rfl⟩
  · next other =>
    have refused := refused_append none fun accepts => other ((accepts_iff _ _).mpr accepts)
    apply ends_bind (ends_fetch refused)
    rintro localArchive after ⟨refused, installs⟩
    have puts : (uploadArchive host localArchive s!"/tmp/{archiveName build}").Only Unversioned :=
      uploadArchive_only nofun nofun
    apply ends_bind (refused_only puts refused installs)
    rintro _ after ⟨refused, installs⟩
    apply ends_bind (refused_only (run_unversioned (by simp [asksVersion, checksumLine, goVersionLine,
      program])) refused installs)
    rintro check after ⟨refused, installs⟩
    split
    · apply ends_bind (refused_only (run_unversioned (by simp [asksVersion, goVersionLine, program]))
        refused installs)
      exact fun _ _ kept => always_raise kept.1
    · apply ends_bind (refused_only (sudoAll_unversioned _) refused installs)
      rintro _ after ⟨refused, installs⟩
      apply ends_bind (refused_only (run_unversioned (by simp [asksVersion, goVersionLine, program]))
        refused installs)
      rintro _ after ⟨refused, installs⟩
      apply ends_bind (ends_version (by decide) refused)
      rintro _ _ ⟨last, rfl, rfl⟩
      split
      · next wanted =>
        refine always_done ⟨after.reports, last, rfl, (accepts_iff _ _).mp wanted, refused, ?_⟩
        intro skipped
        rw [installs] at skipped
        cases skipped
      · next other =>
        exact always_raise (refused_append refused fun accepts =>
          other ((accepts_iff _ _).mpr accepts))

theorem Extends.accepts {output : Output} (extends' : Extends build output) : Accepts build output := by
  obtain ⟨exited, more, strips, -⟩ := extends'
  exact ⟨exited, more, strips⟩

theorem pinnedOnly_iff (accepted : seen.Accepted build) (version : String) :
    PinnedOnly build (.returned version) seen ↔ NoneExtends build seen := by
  obtain ⟨before, last, reports, ⟨exited, more, strips⟩, earlier, skips⟩ := accepted
  have shown : seen.reports.getLast? = some last := by
    rw [reports, List.getLast?_concat]
  have exact := reports_iff exited strips
  constructor
  · intro pinned output member extends'
    obtain ⟨found, same, named⟩ := (pinned version rfl).1
    rw [shown, Option.some.injEq] at same
    rw [reports] at member
    rcases List.mem_append.mp member with old | new
    · exact earlier output old extends'.accepts
    · rw [List.mem_singleton.mp new] at extends'
      exact exact.mp (same ▸ named) extends'
  · intro none other _
    have named := exact.mpr (none last (by simp [reports]))
    refine ⟨⟨last, shown, named⟩, fun skipped => ⟨last, ?_, named⟩⟩
    rw [reports, skips skipped]
    rfl

end Runs

/-- A call goes by the pinned release alone just where no output went on with its word behind
the text that is looked for. -/
theorem install_go_pins_iff (cacheDir : String) (host : RemoteHost) (build : BuildConfig) :
    Always versionStep (installGo cacheDir host build) unseen
      (fun outcome after => PinnedOnly build outcome after ↔ NoneExtends build after) := by
  refine Always.mono ends_installGo ?_
  intro outcome after ended
  cases outcome with
  | returned version => exact pinnedOnly_iff ended version
  | raised error =>
    exact iff_of_true nofun fun output member extends' => ended output member extends'.accepts
  | stopped =>
    exact iff_of_true nofun fun output member extends' => ended output member extends'.accepts

def printing (stdout : String) : Replies
  | .inl (.exec _ _ _) => .ok ⟨0, stdout, ""⟩
  | .inl .openSftp => .ok ()
  | .inl (.sftpWrite _ _) => .ok ()
  | .inl (.sftpPut _ _) => .ok ()
  | .inl (.urandom _) => []
  | .inl (.getenv _) => none
  | .inr (.isFile _) => false
  | .inr (.readBytes _) => .error ""
  | .inr (.sha256File _) => .error ""
  | .inr (.mkdirParents _) => .ok ()
  | .inr (.download _ _) => .ok ()
  | .inr (.unlink _) => .ok ()

theorem longer_release_is_kept : ∃ after,
    (installGo "cache" exampleHost ⟨"1.2", "0123"⟩).eval versionStep unseen
        [printing "go version go1.26.5 linux/amd64\n"] =
      (.returned "go version go1.26.5 linux/amd64", after) ∧
    ¬ PinnedOnly ⟨"1.2", "0123"⟩ (.returned "go version go1.26.5 linux/amd64") after := by
  refine ⟨⟨[⟨0, "go version go1.26.5 linux/amd64\n", ""⟩], false⟩, by rfl, ?_⟩
  intro pinned
  obtain ⟨last, same, -, word⟩ := (pinned _ rfl).1
  cases same
  exact absurd word (by decide)

end VmDeploy.Service
