import VmDeploy.Setup.Keys

/-! Which passwords a sanitised image can still carry. -/

set_option autoImplicit false

open Effects Shell Python

namespace VmDeploy.Setup

open Remote

section Passwords

variable {user : String} {host : RemoteHost} {policy : Policy} {env : Option String}
  {image : Image} {guest : Guest}

/-- The accounts are those of the image with every recorded lock applied. -/
def Guest.Tracks (user : String) (image : Image) (guest : Guest) : Prop :=
  guest.image.accounts =
    image.accounts.map (Account.lockIf user fun name => decide ((name, true) ∈ guest.locks))

/-- A lock has been tried on every account the loop reaches. -/
def Guest.Attempted (user : String) (image : Image) (guest : Guest) : Prop :=
  ∀ account ∈ image.accounts, account.lockable user = true →
    ∃ took, (account.name, took) ∈ guest.locks

/-- No person can log in with a password. -/
def Image.PasswordFree (image : Image) : Prop :=
  ∀ account ∈ image.accounts, account.human = true → account.usable = false

theorem lockIf_name (user : String) (took : String → Bool) (account : Account) :
    (account.lockIf user took).name = account.name ∧
      (account.lockIf user took).lockable user = account.lockable user := by
  unfold Account.lockIf
  split <;> exact ⟨rfl, rfl⟩

-- An account of the image is still there when the lock loop runs.
theorem tried_of_tracks (tracks : guest.Tracks user image) (took : String → Bool)
    {account : Account} (member : account ∈ image.accounts)
    (reached : account.lockable user = true) :
    (account.name, took account.name) ∈ (guest.lock user took).locks := by
  let here := account.lockIf user fun name => decide ((name, true) ∈ guest.locks)
  have present : here ∈ guest.image.accounts := by
    rw [tracks]
    exact List.mem_map_of_mem member
  obtain ⟨name, same⟩ := lockIf_name user
    (fun name => decide ((name, true) ∈ guest.locks)) account
  refine List.mem_append_right _ (List.mem_map.mpr ⟨here, ?_, ?_⟩)
  · exact List.mem_filter.mpr ⟨present, same.trans reached⟩
  · rw [show here.name = account.name from name]

theorem tracks_lock (tracks : guest.Tracks user image) (took : String → Bool) :
    (guest.lock user took).Tracks user image := by
  have accounts : (guest.lock user took).image.accounts =
      image.accounts.map (fun account => (account.lockIf user
        fun name => decide ((name, true) ∈ guest.locks)).lockIf user took) := by
    rw [Guest.lock, show guest.image.accounts = _ from tracks, List.map_map]
    rfl
  rw [Guest.Tracks, accounts]
  refine List.map_congr_left ?_
  intro account member
  cases reached : account.lockable user with
  | false => simp [Account.lockIf, reached]
  | true =>
    have recorded : (account.name, true) ∈ (guest.lock user took).locks ↔
        (account.name, true) ∈ guest.locks ∨ took account.name = true := by
      constructor
      · intro entry
        rcases List.mem_append.mp entry with old | new
        · exact .inl old
        · obtain ⟨other, _, same⟩ := List.mem_map.mp new
          obtain ⟨name, result⟩ := Prod.mk.inj same
          exact .inr (name ▸ result)
      · rintro (old | new)
        · exact List.mem_append_left _ old
        · exact new ▸ tried_of_tracks tracks took member reached
    by_cases old : (account.name, true) ∈ guest.locks
    · have now := recorded.mpr (.inl old)
      simp [Account.lockIf, reached, old, now]
    · cases new : took account.name with
      | true =>
        have now := recorded.mpr (.inr new)
        simp [Account.lockIf, reached, old, new, now]
      | false =>
        have now : (account.name, true) ∉ (guest.lock user took).locks := by
          rw [recorded]
          simp [old, new]
        simp [Account.lockIf, reached, old, new, now]

theorem attempted_lock (tracks : guest.Tracks user image) (took : String → Bool) :
    (guest.lock user took).Attempted user image :=
  fun _ member reached => ⟨_, tried_of_tracks tracks took member reached⟩

theorem attempted_grows {later : Guest} (attempted : guest.Attempted user image)
    (grows : ∀ entry ∈ guest.locks, entry ∈ later.locks) : later.Attempted user image := by
  intro account member reached
  obtain ⟨took, entry⟩ := attempted account member reached
  exact ⟨took, grows _ entry⟩

def Guest.SameRecord (guest later : Guest) : Prop :=
  later.image.accounts = guest.image.accounts ∧ later.locks = guest.locks

theorem tracks_sameRecord {later : Guest} (same : guest.SameRecord later)
    (tracks : guest.Tracks user image) : later.Tracks user image := by
  rw [Guest.Tracks, same.1, same.2]
  exact tracks

-- An action is a lock by root or leaves the accounts and the record.
theorem perform_record (user : String) (x : Choice) (event : Event) (guest : Guest) :
    guest.SameRecord (x.perform user event guest).2 ∨
      (guest.lock user x.took).SameRecord (x.perform user event guest).2 := by
  by_cases finds : event = .runs .root findAuthorizedKeys.head
  · exact .inl (by simp only [Choice.perform, if_pos finds]; exact ⟨rfl, rfl⟩)
  · by_cases idle : event = .runs .user trueCommand
    · exact .inl (by simp only [Choice.perform, if_neg finds, if_pos idle]; exact ⟨rfl, rfl⟩)
    · by_cases locks : event = .runs .root (lockAccounts user).head
      · exact .inr (by simp only [Choice.perform, if_neg finds, if_neg idle, if_pos locks]
                       exact ⟨rfl, rfl⟩)
      · exact .inl (by simp only [Choice.perform, if_neg finds, if_neg idle, if_neg locks]
                       exact ⟨rfl, rfl⟩)

theorem perform_lock (x : Choice) (guest : Guest) :
    (guest.lock user x.took).SameRecord
      (x.perform user (.runs .root (lockAccounts user).head) guest).2 := by
  have other : Event.runs .root (lockAccounts user).head ≠ .runs .root findAuthorizedKeys.head := by
    simp [lockAccounts, program, findAuthorizedKeys, tolerated]
  simp only [Choice.perform, if_neg other, if_true]
  exact ⟨rfl, rfl⟩

theorem perform_tracks (x : Choice) (event : Event) (guest : Guest)
    (tracks : guest.Tracks user image) : (x.perform user event guest).2.Tracks user image := by
  rcases perform_record user x event guest with same | same
  · exact tracks_sameRecord same tracks
  · exact tracks_sameRecord same (tracks_lock tracks x.took)

theorem perform_attempted (x : Choice) (event : Event) (guest : Guest)
    (attempted : guest.Attempted user image) :
    (x.perform user event guest).2.Attempted user image := by
  refine attempted_grows attempted ?_
  intro entry old
  rcases perform_record user x event guest with same | same
  · exact same.2 ▸ old
  · exact same.2 ▸ List.mem_append_left _ old

-- An invariant of the accounts and the record is kept by every request.
theorem guestStep_keeps (policy : Policy) (env : Option String) {inv : Guest → Prop}
    (keeps : ∀ (x : Choice) event guest, inv guest → inv (x.perform user event guest).2)
    (x : Choice) (op : RemoteOp) (guest : Guest) (held : inv guest) :
    inv (guestStep policy env user x op guest).2 := by
  cases op with
  | exec script stdin timeout =>
    exact script_keeps inv (fun _ _ _ => keeps x _) (fun _ _ _ => keeps x _) held
  | _ => exact held

theorem tracks_start (user : String) (image : Image) : Guest.Tracks user image ⟨image, []⟩ := by
  have none : Account.lockIf user (fun name => decide ((name, true) ∈ ([] : List (String × Bool))))
      = id := by
    funext account
    simp [Account.lockIf]
  rw [Guest.Tracks, none, List.map_id]

-- Whatever the policy of `sudo` is, an account changes only by a lock that took effect.
theorem upholds_tracks (policy : Policy) (env : Option String) (host : RemoteHost) (user : String)
    (image : Image) :
    Upholds (guestStep policy env user) (sanitizeImage host user) ⟨image, []⟩
      (Guest.Tracks user image) (fun _ _ => True) :=
  upholds_only (Prog.only_true _) (tracks_start user image)
    (fun x op guest _ => guestStep_keeps policy env perform_tracks x op guest)

-- The lock loop runs before the unchecked `sudo` around it returns.
theorem upholds_lockAccounts (supplied : Supplied env policy) (tracks : guest.Tracks user image) :
    Upholds (guestStep policy env user) (host.sudo (lockAccounts user) false none) guest
      (Guest.Tracks user image) (fun _ after => after.Attempted user image) := by
  have kept : ∀ (x : Choice) stdin script (guest : Guest), guest.Tracks user image →
      ((sanitizedGuest user).ran x policy stdin script guest).world.Tracks user image :=
    fun x stdin script guest held => script_keeps (Guest.Tracks user image)
      (fun _ _ _ => perform_tracks x _) (fun _ _ _ => perform_tracks x _) held
  have locked : ∀ (x : Choice) mode stdin (guest : Guest), guest.Tracks user image →
      policy.authorises mode stdin = true →
      ((sanitizedGuest user).ran x policy stdin (.elevated mode (lockAccounts user)) guest).world.Attempted
        user image := by
    intro x mode stdin guest held authorised
    have ran := ran_single (sanitizedGuest user) policy
      (show Single (lockAccounts user) from single_program _) x stdin mode guest
    rw [authorised, if_pos rfl] at ran
    rw [ran]
    refine attempted_grows (attempted_lock held x.took) ?_
    intro entry member
    change entry ∈ (x.perform user (.runs .root (lockAccounts user).head) guest).2.locks
    rw [(perform_lock x guest).2]
    exact member
  refine upholds_sudo tracks (fun x => kept x _ _ _ tracks) ?_ ?_
  · intro x ran good
    cases policy with
    | passwordless => exact locked x .nonInteractive none guest tracks rfl
    | password secret =>
      have refused := ran_single (sanitizedGuest user) (.password secret)
        (show Single (lockAccounts user) from single_program _) x none .nonInteractive guest
      rw [show ran = _ from refused] at good
      exact absurd good Nat.one_ne_zero
  · intro x y password _ set nonempty
    have middle := kept x none (.elevated .nonInteractive (lockAccounts user)) guest tracks
    refine ⟨kept y _ _ _ middle, fun _ =>
      locked y .readPassword (some (password ++ "\n")) _ middle ?_⟩
    cases policy with
    | passwordless => rfl
    | password secret =>
      obtain rfl : secret = password := Option.some.inj (supplied.2.symm.trans set)
      simp [Policy.authorises]

-- Where the operational account may use `sudo`, each account that the loop reaches has been tried
-- when an image is passed.
theorem upholds_attempted (user : String) (host : RemoteHost) (supplied : Supplied env policy)
    (image : Image) :
    Upholds (guestStep policy env user) (sanitizeImage host user) ⟨image, []⟩ (fun _ => True)
      (fun _ after => after.Tracks user image ∧ after.Attempted user image) := by
  have purges := upholds_only (Prog.only_true (host.sudo purgeCredentials false none))
    (tracks_start user image)
    (fun x op guest _ => guestStep_keeps policy env perform_tracks x op guest)
  refine upholds_bind (purges.mono (fun _ _ => trivial) (fun _ _ held _ => held)) ?_
  intro _ purged _ tracks
  have locks : Upholds (guestStep policy env user) (host.sudo (lockAccounts user) false none) purged
      _ _ := upholds_lockAccounts supplied tracks
  refine upholds_bind (locks.mono (fun _ _ => trivial) (fun _ _ held tried => And.intro held tried)) ?_
  intro _ locked _ both
  -- What follows keeps the record, whatever else it does.
  have records : ∀ (x : Choice) event guest,
      guest.Tracks user image ∧ guest.Attempted user image →
        (x.perform user event guest).2.Tracks user image ∧
          (x.perform user event guest).2.Attempted user image :=
    fun x event guest held =>
      ⟨perform_tracks x event guest held.1, perform_attempted x event guest held.2⟩
  have rest : Upholds (guestStep policy env user)
      ((runAll host purgeTooling).bind fun _ =>
        (host.run (.plain findTooling) false none).bind fun _ => verifyNoAuthorizedKeys host) locked
      (fun after => after.Tracks user image ∧ after.Attempted user image) (fun _ _ => True) :=
    upholds_only (Prog.only_true _) both
      (fun x op guest _ => guestStep_keeps policy env records x op guest)
  exact rest.mono (fun _ _ => trivial) (fun _ _ held _ => held)

-- The locks that took effect decide which passwords are left.
theorem passwordFree_iff (tracks : guest.Tracks user image) :
    guest.image.PasswordFree ↔ ∀ account ∈ image.accounts, account.human = true →
      account.usable = false ∨ account.name ≠ user ∧ (account.name, true) ∈ guest.locks := by
  rw [Image.PasswordFree, show guest.image.accounts = _ from tracks, List.forall_mem_map]
  refine forall₂_congr fun account member => ?_
  by_cases reached : account.lockable user = true ∧ (account.name, true) ∈ guest.locks
  · have other : account.name ≠ user := by
      simpa [Account.lockable] using (Bool.and_eq_true _ _ |>.mp reached.1).2
    simp [Account.lockIf, reached.1, reached.2, other]
  · have same : (account.lockIf user fun name => decide ((name, true) ∈ guest.locks)) = account := by
      rw [Account.lockIf, if_neg (by simpa using reached)]
    rw [same]
    refine forall_congr' fun human => ?_
    constructor
    · exact .inl
    · rintro (locked | ⟨other, tried⟩)
      · exact locked
      · exact absurd ⟨by simp [Account.lockable, human, other], tried⟩ reached

/-- An image that is passed carries no password exactly when each person's was not usable before, or
is another's than the operational account's and a lock on it took effect. -/
theorem sanitized_passwords (policy : Policy) (env : Option String) (host : RemoteHost)
    (user : String) (image : Image) :
    Always (guestStep policy env user) (sanitizeImage host user) ⟨image, []⟩
      (fun outcome after => outcome = .returned () →
        (after.image.PasswordFree ↔ ∀ account ∈ image.accounts, account.human = true →
          account.usable = false ∨ account.name ≠ user ∧ (account.name, true) ∈ after.locks)) := by
  refine Always.mono (upholds_tracks policy env host user image) ?_
  rintro outcome after ⟨tracks, -⟩ _
  exact passwordFree_iff tracks

def twoAccounts : Image where
  accounts := [⟨"vmadmin", 1000, true⟩, ⟨"builder", 1001, true⟩]
  paths := []

/-- Every command succeeds, and the operational account keeps its password. -/
theorem operational_password_survives :
    ¬ Always (guestStep (.password "secret") (some "secret") "vmadmin")
      (sanitizeImage exampleHost "vmadmin") ⟨twoAccounts, []⟩
      (fun outcome after => outcome = .returned () → after.image.PasswordFree) := by
  intro free
  obtain ⟨after, returned, _⟩ := calm_sanitizeImage "vmadmin" exampleHost
    (show "secret" ≠ "" by decide) ⟨twoAccounts, []⟩
  have none := free.execute calm
  have known := Always.execute (upholds_tracks (.password "secret") (some "secret") exampleHost "vmadmin"
    twoAccounts) calm
  rw [returned] at none known
  have tracks : after.image.accounts = _ := known.1
  have kept : (⟨"vmadmin", 1000, true⟩ : Account) ∈ after.image.accounts := by
    rw [tracks, twoAccounts, List.map_cons, Account.lockIf, if_neg (by simp [Account.lockable])]
    exact List.mem_cons_self
  exact nomatch none rfl _ kept rfl

end Passwords

end VmDeploy.Setup
