import Mathlib.Data.List.Basic

/-! `pull-image.ps1`: the fetch of an appliance that resumes, and its verification. -/

set_option autoImplicit false

namespace VmDeploy.Image

abbrev Bytes := List UInt8

/-- The destination, where there is one. -/
abbrev Landed := Option Bytes

/-- `(Get-Item $landed).Length`, or nothing. -/
def present (landed : Landed) : Nat :=
  landed.elim 0 List.length

/-- What one attempt meets. A transfer that breaks off leaves some of the missing bytes, and
may leave no file where there was none. -/
inductive Transfer where
  | completes
  | breaksOff (received : Nat) (creates : Bool)
  | unresolved (cause : String)
  deriving DecidableEq, Repr

/-- `curl -C -` appends what is received of the missing suffix. -/
def received (blob : Bytes) (landed : Landed) (count : Nat) : Bytes :=
  landed.getD [] ++ (blob.drop (present landed)).take count

def Transfer.leaves (transfer : Transfer) (blob : Bytes) (landed : Landed) : Landed :=
  match transfer with
  | .completes => some (received blob landed blob.length)
  | .breaksOff count creates =>
      if count = 0 ∧ creates = false then landed else some (received blob landed count)
  | .unresolved _ => landed

/-- How a run fails, with the numbers and digests its message names. -/
inductive PullError where
  | unresolved (cause : String)
  | interrupted (attempts got expected : Nat)
  | missing
  | lengthMismatch (actual expected : Nat)
  | digestMismatch (expected actual : String)
  deriving DecidableEq, Repr

/-- The message of a failed run; `gb` rounds to gigabytes. -/
def PullError.text (ref landed : String) (gb : Nat → String) : PullError → String
  | .unresolved cause => cause
  | .interrupted attempts got expected =>
      s!"Download of {ref} failed after {attempts} attempt(s) with {gb got} GB of " ++
        s!"{gb expected} GB retrieved. The partial file is kept, so running this script again " ++
        "resumes rather than restarting."
  | .missing => s!"Cannot find path '{landed}' because it does not exist."
  | .lengthMismatch actual expected =>
      s!"Downloaded {actual} bytes but the registry advertises {expected}. Re-run to resume."
  | .digestMismatch expected actual =>
      s!"Digest mismatch: expected {expected} but got {actual}. The corrupt file has been " ++
        "deleted so it cannot be imported. Run this script again."

section Script

variable (hash : Bytes → String) (digest : String) (blob : Bytes)

/-- The loop from this attempt on, with so many left. -/
def fetch (attempts : Nat) (transfers : Nat → Transfer) (landed : Landed) :
    Nat → Except PullError Unit × Landed
  | 0 => (.ok (), landed)
  | left + 1 =>
      let attempt := attempts - left
      if blob.length ≤ present landed then (.ok (), landed)
      else
        let after := (transfers attempt).leaves blob landed
        match transfers attempt with
        | .unresolved cause => (.error (.unresolved cause), after)
        | .completes => (.ok (), after)
        | .breaksOff _ _ =>
            if left = 0 then (.error (.interrupted attempts (present after) blob.length), after)
            else fetch attempts transfers after left

/-- Strings are compared without regard to case. -/
def sameText (left right : String) : Bool :=
  left.toLower == right.toLower

def fileDigest (content : Bytes) : String :=
  "sha256:" ++ (hash content).toLower

/-- The size and the digest of the file; a corrupt file is removed. -/
def verify (landed : Landed) : Except PullError Unit × Landed :=
  match landed with
  | none => (.error .missing, none)
  | some content =>
      if content.length ≠ blob.length then
        (.error (.lengthMismatch content.length blob.length), some content)
      else if sameText (fileDigest hash content) digest then (.ok (), some content)
      else (.error (.digestMismatch digest (fileDigest hash content)), none)

def pull (attempts : Nat) (transfers : Nat → Transfer) (landed : Landed) :
    Except PullError Unit × Landed :=
  match fetch blob attempts transfers landed attempts with
  | (.ok _, after) => verify hash digest blob after
  | (.error error, after) => (.error error, after)

def pulls (attempts : Nat) (runs : List (Nat → Transfer)) (landed : Landed) : Landed :=
  runs.foldl (fun landed transfers => (pull hash digest blob attempts transfers landed).2) landed

/-- The digest is that of the blob, and no other content of its length has it. -/
def Advertised : Prop :=
  ∀ content, content.length = blob.length →
    (sameText (fileDigest hash content) digest = true ↔ content = blob)

def Safe (attempts : Nat) (initial : Landed) : Prop :=
  ∀ runs transfers,
    let ended := pull hash digest blob attempts transfers
      (pulls hash digest blob attempts runs initial)
    ended.1 = .ok () → ended.2 = some blob

def Uninterrupted (transfers : Nat → Transfer) : Prop :=
  ∀ attempt, transfers attempt = .completes

/-- After a failed run, one of two more whose transfers are not interrupted succeeds. -/
def Recovers (attempts : Nat) (initial : Landed) : Prop :=
  ∀ runs transfers,
    let failed := pull hash digest blob attempts transfers
      (pulls hash digest blob attempts runs initial)
    failed.1 ≠ .ok () → ∀ first second, Uninterrupted first → Uninterrupted second →
      (pull hash digest blob attempts first failed.2).1 = .ok () ∨
        (pull hash digest blob attempts second
          (pull hash digest blob attempts first failed.2).2).1 = .ok ()

/-- There is no more than the blob has bytes for, and something to fetch where there is nothing. -/
structure Fits (landed : Landed) : Prop where
  nothing : landed = none → blob ≠ []
  bounded : ∀ content, landed = some content → content.length ≤ blob.length

/-- The script has an attempt and a file that it can complete, or nothing left to do. -/
def Recoverable (attempts : Nat) (landed : Landed) : Prop :=
  landed = some blob ∨ 0 < attempts ∧ Fits blob landed

end Script

section Proofs

variable {hash : Bytes → String} {digest : String} {blob : Bytes} {attempts : Nat}
  {transfers : Nat → Transfer} {landed : Landed}

theorem length_received (fits : Fits blob landed) (count : Nat) :
    (received blob landed count).length ≤ blob.length := by
  cases landed with
  | none =>
    simp only [received, present, Option.getD_none, Option.elim_none, List.nil_append, List.drop_zero]
    exact List.length_take_le' count blob
  | some content =>
    have bounded := fits.bounded content rfl
    simp only [received, present, Option.getD_some, Option.elim_some, List.length_append,
      List.length_take, List.length_drop]
    omega

theorem fits_leaves (fits : Fits blob landed) (transfer : Transfer) :
    Fits blob (transfer.leaves blob landed) := by
  have more : ∀ count, Fits blob (some (received blob landed count)) := by
    intro count
    constructor
    · intro none
      cases none
    · rintro content same
      cases same
      exact length_received fits count
  cases transfer with
  | completes => exact more _
  | breaksOff count creates =>
    rw [Transfer.leaves]
    split
    · exact fits
    · exact more count
  | unresolved cause => exact fits

theorem fits_fetch (fits : Fits blob landed) (left : Nat) :
    Fits blob (fetch blob attempts transfers landed left).2 := by
  induction left generalizing landed with
  | zero => exact fits
  | succ left ih =>
    have after := fits_leaves fits (transfers (attempts - left))
    rw [fetch]
    split
    · exact fits
    · cases met : transfers (attempts - left) with
      | completes =>
        rw [met] at after
        exact after
      | unresolved cause =>
        rw [met] at after
        exact after
      | breaksOff count creates =>
        rw [met] at after
        dsimp only
        split
        · exact after
        · exact ih after

theorem verify_ok (advertised : Advertised hash digest blob) :
    (verify hash digest blob landed).1 = .ok () ↔ landed = some blob := by
  cases landed with
  | none => simp [verify]
  | some content =>
    by_cases whole : content.length = blob.length
    · rw [verify, if_neg (not_not.mpr whole), Option.some_inj, ← advertised content whole]
      by_cases same : sameText (fileDigest hash content) digest = true <;> simp [same]
    · have differs : content ≠ blob := fun same => whole (congrArg List.length same)
      simp [verify, whole, differs]

theorem verify_blob (advertised : Advertised hash digest blob) :
    verify hash digest blob (some blob) = (.ok (), some blob) := by
  rw [verify, if_neg (not_not.mpr rfl), if_pos ((advertised blob rfl).mpr rfl)]

-- Only a file of the right length is removed, and that only where it is not the blob.
theorem verify_other (advertised : Advertised hash digest blob) {content : Bytes}
    (other : content ≠ blob) : (verify hash digest blob (some content)).2 =
      if content.length = blob.length then none else some content := by
  by_cases whole : content.length = blob.length
  · have differs : ¬ sameText (fileDigest hash content) digest = true :=
      fun same => other ((advertised content whole).mp same)
    rw [verify, if_neg (not_not.mpr whole), if_neg differs, if_pos whole]
  · rw [verify, if_pos whole, if_neg whole]

theorem fits_verify (advertised : Advertised hash digest blob) (fits : Fits blob landed) :
    Fits blob (verify hash digest blob landed).2 := by
  cases landed with
  | none => exact fits
  | some content =>
    by_cases same : content = blob
    · rw [same, verify_blob advertised]
      exact same ▸ fits
    rw [verify_other advertised same]
    split
    · next whole =>
      refine ⟨fun _ empty => same ?_, fun content none => by cases none⟩
      rw [empty] at whole ⊢
      exact List.eq_nil_of_length_eq_zero whole
    · exact fits

theorem pull_fetched {after : Landed}
    (fetched : fetch blob attempts transfers landed attempts = (.ok (), after)) :
    pull hash digest blob attempts transfers landed = verify hash digest blob after := by
  rw [pull, fetched]

theorem pull_failed {error : PullError} {after : Landed}
    (failed : fetch blob attempts transfers landed attempts = (.error error, after)) :
    pull hash digest blob attempts transfers landed = (.error error, after) := by
  rw [pull, failed]

theorem fits_pull (advertised : Advertised hash digest blob) (attempts : Nat)
    (transfers : Nat → Transfer) (fits : Fits blob landed) :
    Fits blob (pull hash digest blob attempts transfers landed).2 := by
  have after : Fits blob (fetch blob attempts transfers landed attempts).2 := fits_fetch fits attempts
  cases fetched : fetch blob attempts transfers landed attempts with
  | mk result reached =>
    rw [fetched] at after
    cases result with
    | ok done =>
      rw [pull_fetched fetched]
      exact fits_verify advertised after
    | error error =>
      rw [pull_failed fetched]
      exact after

theorem fits_pulls (advertised : Advertised hash digest blob) (runs : List (Nat → Transfer))
    (fits : Fits blob landed) : Fits blob (pulls hash digest blob attempts runs landed) := by
  induction runs generalizing landed with
  | nil => exact fits
  | cons transfers runs ih => exact ih (fits_pull advertised attempts transfers fits)

-- Success comes of the verification, which lets pass the blob only.
theorem pull_safe (advertised : Advertised hash digest blob)
    (success : (pull hash digest blob attempts transfers landed).1 = .ok ()) :
    (pull hash digest blob attempts transfers landed).2 = some blob := by
  cases fetched : fetch blob attempts transfers landed attempts with
  | mk result reached =>
    cases result with
    | ok done =>
      rw [pull_fetched fetched] at success ⊢
      obtain rfl := (verify_ok advertised).mp success
      rw [verify_blob advertised]
    | error error =>
      rw [pull_failed fetched] at success
      cases success

theorem fetch_enough (enough : blob.length ≤ present landed) (left : Nat) :
    fetch blob attempts transfers landed left = (.ok (), landed) := by
  cases left with
  | zero => rfl
  | succ left => rw [fetch, if_pos enough]

theorem pull_blob (advertised : Advertised hash digest blob) :
    pull hash digest blob attempts transfers (some blob) = (.ok (), some blob) := by
  have enough : blob.length ≤ present (some blob) := Nat.le_refl _
  rw [pull_fetched (fetch_enough enough attempts), verify_blob advertised]

theorem pulls_blob (advertised : Advertised hash digest blob) (runs : List (Nat → Transfer)) :
    pulls hash digest blob attempts runs (some blob) = some blob := by
  induction runs with
  | nil => rfl
  | cons transfers runs ih =>
    rw [pulls, List.foldl_cons, pull_blob advertised]
    exact ih

-- A run without interruption completes the file.
theorem fetch_completes (positive : 0 < attempts) (fits : Fits blob landed)
    (whole : Uninterrupted transfers) : ∃ content,
      fetch blob attempts transfers landed attempts = (.ok (), some content) ∧
        content.length = blob.length ∧ (landed = none → content = blob) := by
  obtain ⟨left, rfl⟩ : ∃ left, attempts = left + 1 := ⟨attempts - 1, by omega⟩
  by_cases enough : blob.length ≤ present landed
  · cases landed with
    | none => exact absurd (List.eq_nil_of_length_eq_zero (Nat.le_zero.mp enough)) (fits.nothing rfl)
    | some content =>
      exact ⟨content, fetch_enough enough _, Nat.le_antisymm (fits.bounded content rfl) enough,
        fun none => by cases none⟩
  · refine ⟨received blob landed blob.length, ?_, ?_, ?_⟩
    · rw [fetch, if_neg enough, whole]
      rfl
    · cases landed with
      | none => simp [received, present]
      | some content =>
        have bounded := fits.bounded content rfl
        simp only [received, present, Option.getD_some, Option.elim_some, List.length_append,
          List.length_take, List.length_drop]
        omega
    · rintro rfl
      simp [received, present]

-- Such a run succeeds, or leaves nothing of a corrupt file.
theorem pull_completes (advertised : Advertised hash digest blob) (positive : 0 < attempts)
    (fits : Fits blob landed) (whole : Uninterrupted transfers) :
    (pull hash digest blob attempts transfers landed).1 = .ok () ∨
      landed ≠ none ∧ (pull hash digest blob attempts transfers landed).2 = none := by
  obtain ⟨content, fetched, sized, fresh⟩ := fetch_completes positive fits whole
  rw [pull_fetched fetched]
  by_cases same : content = blob
  · rw [same, verify_blob advertised]
    exact .inl rfl
  · rw [verify_other advertised same, if_pos sized]
    exact .inr ⟨fun none => same (fresh none), rfl⟩

-- A file that is not recoverable is so after any run, and no run succeeds.
theorem pull_stuck (advertised : Advertised hash digest blob) (transfers : Nat → Transfer)
    (stuck : ¬ Recoverable blob attempts landed) :
    (pull hash digest blob attempts transfers landed).1 ≠ .ok () ∧
      ¬ Recoverable blob attempts (pull hash digest blob attempts transfers landed).2 := by
  rw [Recoverable, not_or, not_and] at stuck
  obtain ⟨other, unfit⟩ := stuck
  have fetched : fetch blob attempts transfers landed attempts = (.ok (), landed) := by
    cases attempts with
    | zero => rfl
    | succ left =>
      refine fetch_enough (Nat.not_lt.mp fun short => unfit (Nat.succ_pos left) ?_) _
      constructor
      · rintro rfl rfl
        cases short
      · rintro content rfl
        exact Nat.le_of_lt short
  rw [pull_fetched fetched]
  refine ⟨mt (verify_ok advertised).mp other, ?_⟩
  have same : ¬ Recoverable blob attempts landed := by
    rw [Recoverable, not_or, not_and]
    exact ⟨other, unfit⟩
  cases landed with
  | none => exact same
  | some content =>
    rw [verify_other advertised fun same => other (congrArg some same)]
    split
    · next whole =>
      rintro (found | ⟨positive, -⟩)
      · cases found
      · apply unfit positive
        constructor
        · intro none
          cases none
        · intro other same
          cases same
          exact Nat.le_of_eq whole
    · exact same

theorem safe (advertised : Advertised hash digest blob) (initial : Landed) :
    Safe hash digest blob attempts initial :=
  fun _ _ success => pull_safe advertised success

theorem recovers (advertised : Advertised hash digest blob) {initial : Landed}
    (recoverable : Recoverable blob attempts initial) :
    Recovers hash digest blob attempts initial := by
  intro runs transfers failed fails first second whole whole'
  rcases recoverable with rfl | ⟨positive, fits⟩
  · refine absurd ?_ fails
    dsimp only [failed]
    rw [pulls_blob advertised, pull_blob advertised]
  · have before : Fits blob failed.2 :=
      fits_pull advertised attempts transfers (fits_pulls advertised runs fits)
    rcases pull_completes advertised positive before whole with success | ⟨-, removed⟩
    · exact .inl success
    · right
      have after := fits_pull advertised attempts first before
      rw [removed] at after ⊢
      exact (pull_completes advertised positive after whole').resolve_right fun both => both.1 rfl

end Proofs

theorem pull_recovers_iff {hash : Bytes → String} {digest : String} {blob : Bytes}
    (advertised : Advertised hash digest blob) (attempts : Nat) (initial : Landed) :
    Safe hash digest blob attempts initial ∧ Recovers hash digest blob attempts initial ↔
      Recoverable blob attempts initial := by
  constructor
  · rintro ⟨-, recovers⟩
    by_contra stuck
    have clean : Uninterrupted fun _ => .completes := fun _ => rfl
    obtain ⟨fails, stuck⟩ := pull_stuck advertised (fun _ => .completes) stuck
    obtain ⟨fails', stuck'⟩ := pull_stuck advertised (fun _ => .completes) stuck
    obtain ⟨fails'', -⟩ := pull_stuck advertised (fun _ => .completes) stuck'
    rcases recovers [] (fun _ => .completes) fails _ _ clean clean with success | success
    · exact fails' success
    · exact fails'' success
  · exact fun recoverable => ⟨safe advertised initial, recovers advertised recoverable⟩

/-- The letters `OVA` for an appliance. -/
def exampleBlob : Bytes :=
  [79, 86, 65]

def exampleDigest : String :=
  "sha256:0f8cd4b771f01f9399292925c0a6f8079a38b41fb6733bcb05490093f0170292"

/-- `Get-FileHash` on the blob and on a file that began as another one, which are what the runs
below come to hash. -/
def exampleHash (content : Bytes) : String :=
  if content = exampleBlob then
    "0F8CD4B771F01F9399292925C0A6F8079A38B41FB6733BCB05490093F0170292"
  else if content = [80, 86, 65] then
    "AEC042048435DCA7B397A249A319F43EE210006A7F7488D70EA986EAC16848ED"
  else ""

theorem toLower_letters (text : String) : text.toLower.toList = text.toList.map Char.toLower :=
  String.toList_map

-- Digests are compared letter by letter.
theorem sameText_iff {left right : String} : sameText left right = true ↔
    left.toList.map Char.toLower = right.toList.map Char.toLower := by
  rw [sameText, beq_iff_eq, ← String.toList_inj, toLower_letters, toLower_letters]

theorem fileDigest_letters (content : Bytes) : (fileDigest exampleHash content).toList =
    "sha256:".toList ++ (exampleHash content).toList.map Char.toLower := by
  rw [fileDigest, String.toList_append, toLower_letters]

theorem example_advertised : Advertised exampleHash exampleDigest exampleBlob := by
  intro content _
  rw [sameText_iff, fileDigest_letters]
  by_cases same : content = exampleBlob
  · rw [same]
    decide +kernel
  · by_cases other : content = [80, 86, 65]
    · rw [other]
      decide +kernel
    · rw [exampleHash, if_neg same, if_neg other]
      refine iff_of_false ?_ same
      decide +kernel

/-- The beginning of another file is completed, found corrupt and removed, and then fetched anew. -/
theorem partial_file_recovers :
    Safe exampleHash exampleDigest exampleBlob 3 (some [80]) ∧
      Recovers exampleHash exampleDigest exampleBlob 3 (some [80]) :=
  (pull_recovers_iff example_advertised 3 (some [80])).mpr
    (.inr ⟨by decide, ⟨by decide, fun content same => by cases same; decide⟩⟩)

/-- A file that is longer than the blob fails the size check in every run, and stays. -/
theorem longer_file_stuck : Advertised exampleHash exampleDigest exampleBlob ∧
    ¬ (Safe exampleHash exampleDigest exampleBlob 3 (some [79, 86, 65, 0]) ∧
      Recovers exampleHash exampleDigest exampleBlob 3 (some [79, 86, 65, 0])) := by
  refine ⟨example_advertised, fun both => ?_⟩
  have again := both.2 [] (fun _ => .completes) (by decide) (fun _ => .completes)
    (fun _ => .completes) (fun _ => rfl) fun _ => rfl
  revert again
  decide

end VmDeploy.Image
