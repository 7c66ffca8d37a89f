import VmDeploy.Encoding.Delimited
import VmDeploy.Website.Tags

/-! Which documents `stamp_backend_identity` leaves with exactly one tag after their first head. -/

set_option autoImplicit false

open Effects Shell Python

namespace VmDeploy.Website

open Remote

/-- The new content carries exactly one tag, which names the backend and stands directly after
what was the first head tag. -/
def Carries (backend : Backend) (content new : Text) : Prop :=
  stampCount new = 1 ∧ ∃ front rest blanks tail,
    splitAfter afterHeadTag? content = some (front, rest) ∧ (∀ c ∈ blanks, isTagSpace c = true) ∧
      new = front ++ (blanks ++ (metaTag backend ++ tail))

section Promise

variable (guest : Guest) (root : Text) (backend : Backend) (host : RemoteHost)

def Served (path content : Text) : Prop :=
  isUnder root path = true ∧ isHtml path = true ∧ hasHeadLine content = true

/-- The documents with a head tag carry the stamp, every other file is as before, and a second
call changes nothing. -/
structure Stamped (before after : Files) : Prop where
  carried : ∀ path content, Dict.get? before path = some content → Served root path content →
    ∃ new, Dict.get? after path = some new ∧ Carries backend content new
  spared : ∀ path, (∀ content, Dict.get? before path = some content → ¬ Served root path content) →
    Dict.get? after path = Dict.get? before path
  steady : ∀ policy env output, ((stampBackendIdentity host root backend).execute
    (siteStep guest root backend policy env output) after).2 = after

/-- A document with a head tag has its stamp already, or has no marker, is reached by the loop
and `sed` takes its first head tag for the first match. The loop reaches no other file that
has a match and no marker. -/
def Fits (files : Files) : Prop :=
  ∀ path content, Dict.get? files path = some content →
    (Served root path content → (isMarked content = true ∧ Carries backend content content) ∨
      (isMarked content = false ∧ path ∈ loopFiles guest root files ∧
        splitAfter afterHead? content = splitAfter afterHeadTag? content)) ∧
    (¬ Served root path content → path ∈ loopFiles guest root files → isMarked content = false →
      splitAfter afterHead? content = none)

end Promise

section Document

variable {backend : Backend} {content front after : Text}

theorem sedHead_split (split : splitAfter afterHead? content = some (front, after)) :
    sedHead backend content = front ++ (stamp backend ++ after) := by
  rw [sedHead, split]

theorem sedHead_whole (split : splitAfter afterHead? content = none) :
    sedHead backend content = content := by
  rw [sedHead, split]

theorem sedHead_eq_iff :
    sedHead backend content = content ↔ splitAfter afterHead? content = none := by
  constructor
  · intro same
    cases split : splitAfter afterHead? content with
    | none => rfl
    | some parts =>
      obtain ⟨front, after⟩ := parts
      have whole := (splitAfter_parts endsTag_afterHead split).1
      rw [sedHead_split split] at same
      have sizes := congrArg List.length (same.trans whole)
      simp [stamp] at sizes
      omega
  · exact sedHead_whole

theorem isMarked_sedHead (split : splitAfter afterHead? content = some (front, after)) :
    isMarked (sedHead backend content) = true := by
  rw [sedHead_split split, isMarked_iff]
  have inside := (isStamp_inside (isStamp_metaTag backend after)).trans
    (List.takeWhile_prefix _).isInfix
  have behind : metaTag backend ++ after <:+: front ++ (stamp backend ++ after) :=
    ⟨front ++ ['\n', ' ', ' ', ' ', ' '], [], by simp [stamp]⟩
  exact inside.trans behind

theorem stampCount_sedHead (unmarked : isMarked content = false)
    (split : splitAfter afterHead? content = some (front, after)) :
    stampCount (sedHead backend content) = 1 := by
  obtain ⟨whole, inner, rfl⟩ := splitAfter_parts endsTag_afterHead split
  have absent : ¬ backendMetaName.toList <:+: content := by
    rw [← isMarked_iff, unmarked]
    exact Bool.false_ne_true
  have before : ¬ backendMetaName.toList <:+: inner := fun inside =>
    absent (inside.trans ⟨[], '>' :: after, by rw [whole]; simp⟩)
  have behind : isMarked after = false := by
    rw [← Bool.not_eq_true, isMarked_iff]
    exact fun inside => absent (inside.trans ⟨inner ++ ['>'], [], by rw [whole]; simp⟩)
  have parts : inner ++ ['>'] ++ (stamp backend ++ after) =
      inner ++ '>' :: (['\n', ' ', ' ', ' ', ' '] ++ (metaTag backend ++ after)) := by
    simp [stamp]
  rw [sedHead_split split, parts, stampCount_cut before, stampCount_skip (by decide),
    stampCount_metaTag, stampCount_unmarked behind]

theorem stampCount_behind (front rest : Text) : stampCount rest ≤ stampCount (front ++ rest) := by
  induction front with
  | nil => exact Nat.le_refl _
  | cons c front ih =>
    rw [List.cons_append, stampCount]
    omega

-- Where a text has one stamp, it starts in one place.
theorem stamp_starts {first second rest other : Text} (same : first ++ rest = second ++ other)
    (once : stampCount (first ++ rest) = 1) (here : isStamp rest = true)
    (there : isStamp other = true) : first = second := by
  have counted : ∀ {text : Text}, isStamp text = true → 1 ≤ stampCount text := by
    intro text stamped
    cases text with
    | nil => cases stamped
    | cons c text =>
      rw [stampCount, stamped]
      simp
  have twice : ∀ (front : Text) {gap late : Text} {c : Char},
      isStamp (c :: (gap ++ late)) = true → isStamp late = true → 2 ≤ stampCount (front ++ c :: (gap ++ late)) := by
    intro front gap late c early later
    have behind := stampCount_behind gap late
    have above := stampCount_behind front (c :: (gap ++ late))
    have least := counted later
    rw [stampCount, early] at above
    simp only [if_true] at above
    omega
  rcases List.append_eq_append_iff.mp same with ⟨gap, rfl, rfl⟩ | ⟨gap, rfl, rfl⟩
  · cases gap with
    | nil => rw [List.append_nil]
    | cons c gap =>
      have two := twice first here there
      rw [List.cons_append] at once
      omega
  · cases gap with
    | nil => rw [List.append_nil]
    | cons c gap =>
      have two := twice second there here
      rw [same, List.cons_append] at once
      omega

-- Spaces behind the end of a tag do not hide where it ends.
theorem tag_ends {front other blanks spaces : Text}
    (same : front ++ '>' :: blanks = other ++ '>' :: spaces)
    (plain : ∀ c ∈ blanks, isTagSpace c = true) (blank : ∀ c ∈ spaces, isTagSpace c = true) :
    front = other := by
  have solid : isTagSpace '>' = false := by decide
  rcases List.append_eq_append_iff.mp same with ⟨gap, rfl, rest⟩ | ⟨gap, rfl, rest⟩
  · cases gap with
    | nil => rw [List.append_nil]
    | cons c gap =>
      obtain ⟨-, rfl⟩ := List.cons.inj rest
      rw [plain '>' (by simp)] at solid
      cases solid
  · cases gap with
    | nil => rw [List.append_nil]
    | cons c gap =>
      obtain ⟨-, rfl⟩ := List.cons.inj rest
      rw [blank '>' (by simp)] at solid
      cases solid

-- What `sed` adds is where it belongs exactly where the first match ends the first head tag.
theorem carries_sedHead_iff (unmarked : isMarked content = false)
    (split : splitAfter afterHead? content = some (front, after)) :
    Carries backend content (sedHead backend content) ↔
      splitAfter afterHeadTag? content = some (front, after) := by
  have once := @stampCount_sedHead backend _ _ _ unmarked split
  have written : sedHead backend content =
      (front ++ ['\n', ' ', ' ', ' ', ' ']) ++ (metaTag backend ++ after) := by
    rw [sedHead_split split]
    simp [stamp]
  constructor
  · rintro ⟨-, tagged, rest, blanks, tail, split', spaces, same⟩
    have regrouped : (front ++ ['\n', ' ', ' ', ' ', ' ']) ++ (metaTag backend ++ after) =
        (tagged ++ blanks) ++ (metaTag backend ++ tail) := by
      rw [← written, same]
      simp
    have starts := stamp_starts regrouped (written ▸ once) (isStamp_metaTag backend after)
      (isStamp_metaTag backend tail)
    obtain ⟨whole, inner, rfl⟩ := splitAfter_parts endsTag_afterHead split
    obtain ⟨whole', inner', rfl⟩ := splitAfter_parts endsTag_afterHeadTag split'
    have ends : inner ++ '>' :: ['\n', ' ', ' ', ' ', ' '] = inner' ++ '>' :: blanks := by
      simpa using starts
    obtain rfl := tag_ends ends (by simp [isTagSpace]) spaces
    obtain rfl := List.append_cancel_left (whole.symm.trans whole')
    exact split'
  · intro split'
    refine ⟨once, front, after, ['\n', ' ', ' ', ' ', ' '], after, split',
      by simp [isTagSpace], ?_⟩
    rw [written]
    simp

end Document

section Loop

variable {guest : Guest} {root : Text} {backend : Backend}

def stampOnce (backend : Backend) (content : Text) : Text :=
  if isMarked content then content else sedHead backend content

theorem stampOnce_again (content : Text) :
    stampOnce backend (stampOnce backend content) = stampOnce backend content := by
  cases marked : isMarked content with
  | true => simp [stampOnce, marked]
  | false =>
    have once : stampOnce backend content = sedHead backend content := by simp [stampOnce, marked]
    rw [once, stampOnce]
    cases split : splitAfter afterHead? content with
    | none => rw [sedHead_whole split, marked, if_neg Bool.false_ne_true, sedHead_whole split]
    | some parts =>
      obtain ⟨front, after⟩ := parts
      rw [isMarked_sedHead split, if_pos rfl]

theorem stampFile_eq (files : Files) (path : Text) :
    stampFile backend files path =
      (Dict.get? files path).elim files fun content =>
        Dict.assign files path (stampOnce backend content) := by
  rw [stampFile]
  cases here : Dict.get? files path with
  | none => rfl
  | some content =>
    simp only [stampOnce, Option.elim_some]
    split
    · exact (Dict.assign_same here).symm
    · rfl

theorem get?_stampFile (files : Files) (path other : Text) :
    Dict.get? (stampFile backend files path) other =
      if path = other then (Dict.get? files other).map (stampOnce backend)
      else Dict.get? files other := by
  rw [stampFile_eq]
  by_cases same : path = other
  · subst same
    cases here : Dict.get? files path with
    | none => simp [here]
    | some content => simp [Dict.get?_assign]
  · cases Dict.get? files path with
    | none => simp [same]
    | some content => simp [Dict.get?_assign, same]

theorem get?_foldl (words : List Text) (files : Files) (path : Text) :
    Dict.get? (words.foldl (stampFile backend) files) path =
      if path ∈ words then (Dict.get? files path).map (stampOnce backend)
      else Dict.get? files path := by
  induction words generalizing files with
  | nil => simp
  | cons word words ih =>
    rw [List.foldl_cons, ih, get?_stampFile]
    by_cases here : word = path
    · subst here
      rw [if_pos rfl, if_pos List.mem_cons_self]
      split
      · rw [Option.map_map]
        congr 1
        exact funext stampOnce_again
      · rfl
    · have listed : path ∈ word :: words ↔ path ∈ words :=
        List.mem_cons.trans (or_iff_right fun same => here same.symm)
      simp only [if_neg here, listed]

theorem foldl_fixed {words : List Text} {files : Files}
    (fixed : ∀ path ∈ words, ∀ content, Dict.get? files path = some content →
      stampOnce backend content = content) : words.foldl (stampFile backend) files = files := by
  induction words with
  | nil => rfl
  | cons word words ih =>
    have still : stampFile backend files word = files := by
      rw [stampFile_eq]
      cases here : Dict.get? files word with
      | none => rfl
      | some content =>
        rw [Option.elim_some, fixed word List.mem_cons_self content here, Dict.assign_same here]
    rw [List.foldl_cons, still]
    exact ih fun path listed => fixed path (List.mem_cons_of_mem word listed)

theorem headName_sedHead (content : Text) :
    headName <:+: sedHead backend content ↔ headName <:+: content := by
  cases split : splitAfter afterHead? content with
  | none => rw [sedHead_whole split]
  | some parts =>
    obtain ⟨front, after⟩ := parts
    obtain ⟨whole, inner, rfl⟩ := splitAfter_parts endsTag_afterHead split
    have absent : ¬ headName <:+: ['\n', ' ', ' ', ' ', ' ', '<'] ++ tagBody backend := by
      have skip : '<' ∉ ['\n', ' ', ' ', ' ', ' '] := by decide
      have shape : ['\n', ' ', ' ', ' ', ' ', '<'] ++ tagBody backend =
          ['\n', ' ', ' ', ' ', ' '] ++ '<' :: tagBody backend := rfl
      rw [headName, shape, Delimited.infix_skip skip]
      rintro (starts | inside)
      · have second := (List.cons_prefix_cons.mp starts).2
        rw [tagBody] at second
        exact absurd (List.cons_prefix_cons.mp second).1 (by decide)
      · exact tagBody_plain (by decide) (by decide) backend (inside.subset List.mem_cons_self)
    have parts : inner ++ ['>'] ++ (stamp backend ++ after) =
        inner ++ '>' :: ((['\n', ' ', ' ', ' ', ' ', '<'] ++ tagBody backend) ++ '>' :: after) := by
      simp [stamp, metaTag_eq]
    have before : inner ++ ['>'] ++ after = inner ++ '>' :: after := by simp
    rw [sedHead_split split, whole, parts, before, Delimited.infix_cut (by decide),
      Delimited.infix_cut (by decide), Delimited.infix_cut (by decide)]
    tauto

theorem selects_stampOnce (path content : Text) :
    selects guest root (path, stampOnce backend content) = selects guest root (path, content) := by
  have words : containsText headName (stampOnce backend content) = containsText headName content := by
    rw [Bool.eq_iff_iff, containsText_iff, containsText_iff, stampOnce]
    split
    · rfl
    · exact headName_sedHead content
  have bytes : guest.binary (stampOnce backend content) = guest.binary content := by
    rw [stampOnce]
    split
    · rfl
    · exact guest.steady backend content
  simp only [selects, words, bytes]

theorem loopFiles_stampFile (files : Files) (path : Text) :
    loopFiles guest root (stampFile backend files path) = loopFiles guest root files := by
  have listed : ((stampFile backend files path).filter (selects guest root)).map Prod.fst =
      (files.filter (selects guest root)).map Prod.fst := by
    rw [stampFile_eq]
    cases here : Dict.get? files path with
    | none => rfl
    | some content =>
      rw [Option.elim_some]
      induction files with
      | nil => cases here
      | cons file files ih =>
        rw [Dict.get?_cons] at here
        rw [Dict.assign]
        split at here
        · next same =>
          obtain rfl : file.2 = content := Option.some.inj here
          have selected : selects guest root (path, stampOnce backend file.2) =
              selects guest root file := by
            rw [selects_stampOnce, ← same]
          rw [if_pos same, List.filter_cons, List.filter_cons, selected]
          split
          · rw [List.map_cons, List.map_cons, same]
          · rfl
        · next other =>
          rw [if_neg other, List.filter_cons, List.filter_cons]
          split
          · rw [List.map_cons, List.map_cons, ih here]
          · exact ih here
  rw [loopFiles, listed, loopFiles]

theorem loopFiles_foldl (words : List Text) (files : Files) :
    loopFiles guest root (words.foldl (stampFile backend) files) = loopFiles guest root files := by
  induction words generalizing files with
  | nil => rfl
  | cons word words ih => rw [List.foldl_cons, ih, loopFiles_stampFile]

theorem get?_stampFiles (files : Files) (path : Text) :
    Dict.get? (stampFiles guest root backend files) path =
      if path ∈ loopFiles guest root files then (Dict.get? files path).map (stampOnce backend)
      else Dict.get? files path :=
  get?_foldl _ files path

theorem stampFiles_again (files : Files) :
    stampFiles guest root backend (stampFiles guest root backend files) =
      stampFiles guest root backend files := by
  have same : loopFiles guest root (stampFiles guest root backend files) =
      loopFiles guest root files := loopFiles_foldl _ files
  rw [stampFiles, same]
  refine foldl_fixed fun path listed content here => ?_
  rw [get?_stampFiles, if_pos listed] at here
  obtain ⟨old, -, rfl⟩ := Option.map_eq_some_iff.mp here
  exact stampOnce_again old

end Loop

section Run

variable {guest : Guest} {root : Text} {backend : Backend} {host : RemoteHost} {policy : Policy}
  {env : Option String} {output : Script → Output} {files : Files}

-- An attempt of `sudo` goes through the loop, or is refused.
theorem ran_stamp (guest : Guest) (root : Text) (backend : Backend) (policy : Policy)
    (output : Script → Output) (files : Files) (mode : SudoMode) (stdin : Option String) :
    let script := Script.elevated mode (stampLine root backend)
    let ran := script.run (perform guest root backend output script) policy stdin files
    ran.world = stampFiles guest root backend files ∨
      (ran.world = files ∧ ran.output.exitStatus ≠ 0) := by
  intro script ran
  have attempted : ran = if policy.authorises mode stdin then
      launch (perform guest root backend output script) .root (stampLine root backend).head files
      else ⟨refusal (stampLine root backend).head, [], files⟩ :=
    runElevated_single (perform guest root backend output script) (single_program _) _ files
  rw [attempted]
  by_cases authorised : policy.authorises mode stdin = true
  · rw [if_pos authorised, launch, perform, if_pos rfl]
    exact .inl rfl
  · rw [if_neg authorised]
    exact .inr ⟨rfl, by simp [refusal]⟩

theorem raises_stampHandler (host : RemoteHost) (root : Text) (error : PyError) :
    ∃ other, (stampHandler host root error).getD (.raise error) = .raise other := by
  cases error with
  | remoteCommandError command exitStatus stdout stderr => exact ⟨_, rfl⟩
  | _ => exact ⟨_, rfl⟩

def Settled (guest : Guest) (root : Text) (backend : Backend) (files : Files)
    (ended : Outcome PyError Unit × Files) : Prop :=
  ended = (.returned (), stampFiles guest root backend files) ∨
    ∃ error, ended.1 = .raised error ∧
      (ended.2 = files ∨ ended.2 = stampFiles guest root backend files)

theorem execute_stamp (guest : Guest) (root : Text) (backend : Backend) (host : RemoteHost)
    (policy : Policy) (env : Option String) (output : Script → Output) (files : Files) :
    Settled guest root backend files ((stampBackendIdentity host root backend).execute
      (siteStep guest root backend policy env output) files) := by
  obtain ⟨run, execs, ran⟩ : ∃ run : SudoMode → Option String → Files → Output × Files,
      (∀ mode stdin seconds files, siteStep guest root backend policy env output
          (.exec (.elevated mode (stampLine root backend)) stdin seconds) files =
        (.ok (run mode stdin files).1, (run mode stdin files).2)) ∧
      ∀ mode stdin files, (run mode stdin files).2 = stampFiles guest root backend files ∨
        ((run mode stdin files).2 = files ∧ (run mode stdin files).1.exitStatus ≠ 0) :=
    ⟨fun mode stdin files =>
      let script := Script.elevated mode (stampLine root backend)
      let ran := script.run (perform guest root backend output script) policy stdin files
      (ran.output, ran.world), fun _ _ _ _ => rfl,
      fun mode stdin files => ran_stamp guest root backend policy output files mode stdin⟩
  have ends := execute_sudo_ends (siteStep guest root backend policy env output) env
    (stampLine root backend) run host none execs (fun _ => rfl) files
  have again := @stampFiles_again guest root backend files
  have returns : ∀ {result : CommandResult} {after : Files},
      (host.sudo (stampLine root backend) true none).execute
        (siteStep guest root backend policy env output) files = (.returned result, after) →
      after = stampFiles guest root backend files →
      Settled guest root backend files ((stampBackendIdentity host root backend).execute
        (siteStep guest root backend policy env output) files) := by
    rintro result after returned rfl
    exact .inl (execute_catching (stampHandler host root) (execute_bind returned))
  have raises : ∀ {error : PyError} {after : Files},
      (host.sudo (stampLine root backend) true none).execute
        (siteStep guest root backend policy env output) files = (.raised error, after) →
      (after = files ∨ after = stampFiles guest root backend files) →
      Settled guest root backend files ((stampBackendIdentity host root backend).execute
        (siteStep guest root backend policy env output) files) := by
    intro error after raised left
    have ended := execute_catching_raised (stampHandler host root)
      (@execute_bind_raised _ _ _ _ _ _ _ (fun _ => pure ()) _ _ _ raised)
    obtain ⟨other, same⟩ := raises_stampHandler host root error
    rw [same] at ended
    exact .inr ⟨other, congrArg Prod.fst ended, left.imp (congrArg Prod.snd ended).trans
      (congrArg Prod.snd ended).trans⟩
  dsimp only at ends
  have first := ran .nonInteractive none files
  rcases ends with ⟨good, result, ended⟩ | ⟨bad, empty, error, ended⟩ |
    ⟨bad, supplied, good, result, ended⟩ | ⟨bad, supplied, worse, error, ended⟩
  · exact returns ended (first.resolve_right fun refused => refused.2 good)
  · exact raises ended (first.symm.imp And.left id)
  · refine returns ended ?_
    have looped := (ran _ _ _).resolve_right fun refused => refused.2 good
    rcases first with once | ⟨spared, -⟩
    · rw [once] at looped ⊢
      exact looped.trans again
    · rw [spared] at looped ⊢
      exact looped
  · refine raises ended ?_
    have second := ran .readPassword (some (env.getD "" ++ "\n")) (run .nonInteractive none files).2
    rcases first with once | ⟨spared, -⟩
    · rw [once] at second ⊢
      exact .inr (second.elim (fun twice => twice.trans again) And.left)
    · rw [spared] at second ⊢
      exact second.symm.imp And.left id

-- A second call changes nothing.
theorem execute_stamp_again (guest : Guest) (root : Text) (backend : Backend) (host : RemoteHost)
    (policy : Policy) (env : Option String) (output : Script → Output) (files : Files) :
    ((stampBackendIdentity host root backend).execute
      (siteStep guest root backend policy env output) (stampFiles guest root backend files)).2 =
        stampFiles guest root backend files := by
  rcases execute_stamp guest root backend host policy env output
    (stampFiles guest root backend files) with ended | ⟨error, -, same | same⟩
  · rw [ended]
    dsimp only
    rw [stampFiles_again]
  · exact same
  · exact same.trans (stampFiles_again files)

theorem ran_stamp_authorised (guest : Guest) (root : Text) (backend : Backend)
    {policy : Policy} (authorises : ∀ mode stdin, policy.authorises mode stdin = true)
    {output : Script → Output} (succeeds : ∀ script, (output script).exitStatus = 0)
    (mode : SudoMode) (stdin : Option String) (files : Files) :
    let script := Script.elevated mode (stampLine root backend)
    let ran := script.run (perform guest root backend output script) policy stdin files
    ran.output.exitStatus = 0 ∧ ran.world = stampFiles guest root backend files := by
  intro script ran
  have attempted : ran = if policy.authorises mode stdin then
      launch (perform guest root backend output script) .root (stampLine root backend).head files
      else ⟨refusal (stampLine root backend).head, [], files⟩ :=
    runElevated_single (perform guest root backend output script) (single_program _) _ files
  rw [attempted, if_pos (authorises mode stdin), launch, perform, if_pos rfl]
  exact ⟨succeeds script, rfl⟩

-- Where `sudo` asks for no password and every script succeeds, the call returns.
theorem execute_stamp_succeeds (guest : Guest) (root : Text) (backend : Backend)
    (host : RemoteHost) {policy : Policy}
    (authorises : ∀ mode stdin, policy.authorises mode stdin = true) (env : Option String)
    {output : Script → Output} (succeeds : ∀ script, (output script).exitStatus = 0) (files : Files) :
    (stampBackendIdentity host root backend).execute
        (siteStep guest root backend policy env output) files =
      (.returned (), stampFiles guest root backend files) := by
  obtain ⟨run, execs, ran⟩ : ∃ run : SudoMode → Option String → Files → Output × Files,
      (∀ mode stdin seconds files, siteStep guest root backend policy env output
          (.exec (.elevated mode (stampLine root backend)) stdin seconds) files =
        (.ok (run mode stdin files).1, (run mode stdin files).2)) ∧
      ∀ mode stdin files, (run mode stdin files).1.exitStatus = 0 ∧
        (run mode stdin files).2 = stampFiles guest root backend files :=
    ⟨fun mode stdin files =>
      let script := Script.elevated mode (stampLine root backend)
      let ran := script.run (perform guest root backend output script) policy stdin files
      (ran.output, ran.world), fun _ _ _ _ => rfl,
      fun mode stdin files => ran_stamp_authorised guest root backend authorises succeeds mode stdin files⟩
  have ends := execute_sudo_ends (siteStep guest root backend policy env output) env
    (stampLine root backend) run host none execs (fun _ => rfl) files
  dsimp only at ends
  obtain ⟨good, left⟩ := ran .nonInteractive none files
  rcases ends with ⟨-, result, ended⟩ | ⟨bad, -⟩ | ⟨bad, -⟩ | ⟨bad, -⟩
  · rw [left] at ended
    exact execute_catching (stampHandler host root) (execute_bind ended)
  · exact absurd good bad
  · exact absurd good bad
  · exact absurd good bad

-- What becomes of a file that is there.
theorem get?_left {path content : Text} (here : Dict.get? files path = some content) :
    Dict.get? (stampFiles guest root backend files) path =
      some (if path ∈ loopFiles guest root files then stampOnce backend content else content) := by
  rw [get?_stampFiles, here]
  split <;> rfl

theorem carries_unmarked {content new : Text} (carries : Carries backend content new) :
    isMarked new = true := by
  by_contra unmarked
  have none := stampCount_unmarked (by simpa using unmarked)
  rw [carries.1] at none
  cases none

-- A served document ends with its stamp in one of two ways.
theorem carries_iff {path content : Text} (served : Served root path content) :
    Carries backend content
        (if path ∈ loopFiles guest root files then stampOnce backend content else content) ↔
      (isMarked content = true ∧ Carries backend content content) ∨
        (isMarked content = false ∧ path ∈ loopFiles guest root files ∧
          splitAfter afterHead? content = splitAfter afterHeadTag? content) := by
  cases marked : isMarked content with
  | true =>
    have same : stampOnce backend content = content := by simp [stampOnce, marked]
    simp [same]
  | false =>
    have once : stampOnce backend content = sedHead backend content := by simp [stampOnce, marked]
    rw [once]
    by_cases listed : path ∈ loopFiles guest root files
    · rw [if_pos listed]
      cases split : splitAfter afterHead? content with
      | none =>
        rw [sedHead_whole split]
        constructor
        · intro carries
          rw [carries_unmarked carries] at marked
          cases marked
        · rintro (⟨other, -⟩ | ⟨-, -, same⟩)
          · cases other
          · have tagged := splitAfter_served served.2.2
            rw [← same] at tagged
            cases tagged
      | some parts =>
        obtain ⟨front, after⟩ := parts
        rw [carries_sedHead_iff marked split]
        simp [listed, eq_comm]
    · rw [if_neg listed]
      constructor
      · intro carries
        rw [carries_unmarked carries] at marked
        cases marked
      · rintro (⟨other, -⟩ | ⟨-, inside, -⟩)
        · cases other
        · exact absurd inside listed

theorem left_iff {path content : Text} :
    (if path ∈ loopFiles guest root files then stampOnce backend content else content) = content ↔
      (path ∈ loopFiles guest root files → isMarked content = false →
        splitAfter afterHead? content = none) := by
  by_cases listed : path ∈ loopFiles guest root files
  · cases marked : isMarked content with
    | true => simp [listed, stampOnce, marked]
    | false => simp [listed, stampOnce, marked, sedHead_eq_iff]
  · simp [listed]

/-- In every run that returns, every file is as promised exactly where the files fit. -/
theorem stamped_iff {after : Files}
    (returned : (stampBackendIdentity host root backend).execute
      (siteStep guest root backend policy env output) files = (.returned (), after)) :
    Stamped guest root backend host files after ↔ Fits guest root backend files := by
  obtain rfl : stampFiles guest root backend files = after := by
    rcases execute_stamp guest root backend host policy env output files with
      ended | ⟨error, raised, -⟩
    · rw [returned] at ended
      exact (Prod.mk.inj ended).2.symm
    · rw [returned] at raised
      cases raised
  constructor
  · intro stamped path content here
    have left := @get?_left guest root backend files path content here
    constructor
    · intro served
      obtain ⟨new, found, carries⟩ := stamped.carried path content here served
      obtain rfl := Option.some.inj (left.symm.trans found)
      exact (carries_iff served).mp carries
    · intro unserved
      have same := stamped.spared path fun other found served => by
        obtain rfl := Option.some.inj (here.symm.trans found)
        exact unserved served
      rw [left, here] at same
      exact left_iff.mp (Option.some.inj same)
  · intro fits
    refine ⟨?_, ?_, fun policy env output =>
      execute_stamp_again guest root backend host policy env output files⟩
    · intro path content here served
      exact ⟨_, get?_left here, (carries_iff served).mpr ((fits path content here).1 served)⟩
    · intro path unserved
      cases here : Dict.get? files path with
      | none =>
        rw [get?_stampFiles, here]
        split <;> rfl
      | some content =>
        rw [get?_left here, left_iff.mpr ((fits path content here).2 (unserved content here))]

end Run

section Documents

theorem nul_sedHead (backend : Backend) (content : Text) :
    (sedHead backend content).contains '\x00' = content.contains '\x00' := by
  have absent : '\x00' ∉ stamp backend := by
    intro member
    rcases List.mem_append.mp member with blank | inside
    · exact absurd blank (by decide)
    · rw [metaTag_eq] at inside
      rcases List.mem_cons.mp inside with same | inner
      · cases same
      · rcases List.mem_append.mp inner with body | last
        · exact tagBody_plain (by decide) (by decide) backend body
        · exact absurd last (by decide)
  cases split : splitAfter afterHead? content with
  | none => rw [sedHead_whole split]
  | some parts =>
    obtain ⟨front, after⟩ := parts
    have whole := (splitAfter_parts endsTag_afterHead split).1
    rw [sedHead_split split, Bool.eq_iff_iff, List.contains_iff_mem, List.contains_iff_mem, whole]
    simp [absent]

/-- A guest where a file with a NUL is binary and no path has a pattern in it. -/
def plainGuest : Guest where
  binary := fun content => content.contains '\x00'
  expand := fun field => [field]
  steady := nul_sedHead

def documentRoot : Text := "/www".toList

def firstBackend : Backend :=
  ⟨['b', '1'], by simp, by simp, by simp, by simp, by simp⟩

def indexPath : Text := "/www/i.html".toList

def lowerSite : Files := [(indexPath, "<head></head>".toList)]

def upperSite : Files := [(indexPath, "<HEAD></HEAD>".toList)]

def silent (_ : Script) : Output := ⟨0, "", ""⟩

theorem fits_lowerSite : Fits plainGuest documentRoot firstBackend lowerSite := by
  intro path content here
  obtain ⟨rfl, rfl⟩ : indexPath = path ∧ "<head></head>".toList = content := by
    rw [lowerSite, Dict.get?_cons] at here
    split at here
    · next same => exact ⟨same, Option.some.inj here⟩
    · cases here
  have served : Served documentRoot indexPath "<head></head>".toList := by
    refine ⟨?_, ?_, ?_⟩ <;> rfl
  refine ⟨fun _ => .inr ?_, fun unserved => absurd served unserved⟩
  refine ⟨?_, ?_, ?_⟩ <;> decide

/-- A head tag in small letters gets its stamp. -/
theorem stamped_lowerSite : Stamped plainGuest documentRoot firstBackend exampleHost lowerSite
    (stampFiles plainGuest documentRoot firstBackend lowerSite) :=
  (@stamped_iff plainGuest documentRoot firstBackend exampleHost .passwordless none silent lowerSite
    _ (execute_stamp_succeeds _ _ _ _ (fun _ _ => rfl) _ (fun _ => rfl) _)).mpr fits_lowerSite

/-- A head tag in capitals, which `grep` passes over, is left without a stamp. -/
theorem capitals_unstamped :
    (stampBackendIdentity exampleHost documentRoot firstBackend).execute
        (siteStep plainGuest documentRoot firstBackend .passwordless none silent) upperSite =
      (.returned (), upperSite) ∧
    ¬ Stamped plainGuest documentRoot firstBackend exampleHost upperSite upperSite := by
  have spared : stampFiles plainGuest documentRoot firstBackend upperSite = upperSite := by
    rfl
  refine ⟨(execute_stamp_succeeds _ _ _ _ (fun _ _ => rfl) _ (fun _ => rfl) _).trans (by rw [spared]), ?_⟩
  intro stamped
  have served : Served documentRoot indexPath "<HEAD></HEAD>".toList := by
    refine ⟨?_, ?_, ?_⟩ <;> decide
  obtain ⟨new, found, once, -⟩ := stamped.carried indexPath _ rfl served
  obtain rfl : "<HEAD></HEAD>".toList = new := Option.some.inj found
  exact absurd once (by decide)

end Documents

end VmDeploy.Website
