import VmDeploy.Setup.Sanitize

/-! Whether a sanitised image can still hold an `authorized_keys` file. -/

set_option autoImplicit false

open Effects Shell Python

namespace VmDeploy.Setup

open Remote

section Search

variable {env : Option String} {user : String} {host : RemoteHost}

theorem listing_empty {image : Image} (none : splitWords image.listing.toList = []) :
    image.keyFiles = [] := by
  have blank := splitWords_eq_nil none
  cases keys : image.keyFiles with
  | nil => rfl
  | cons path rest =>
    have root : path.head? = some "root" ∨ path.head? = some "home" := by
      have member : path ∈ image.keyFiles := by rw [keys]; exact List.mem_cons_self
      have holds := (List.mem_filter.mp member).2
      simp only [holdsKeys, Bool.and_eq_true, Bool.or_eq_true, beq_iff_eq] at holds
      exact holds.1
    cases path with
    | nil => simp at root
    | cons name names =>
      have slash : '/' ∈ image.listing.toList := by
        simp [Image.listing, keys, renderPath]
      exact nomatch blank '/' slash

theorem perform_true (user : String) (x : Choice) (guest : Guest) :
    x.perform user (.runs .user trueCommand) guest = (⟨0, "", ""⟩, guest) := by
  rw [Choice.perform, if_neg (by decide), if_pos rfl]

-- Without a password the check succeeds whatever `find` reports, and prints every
-- surviving file.
theorem upholds_find (guest : Guest) :
    Upholds (guestStep .passwordless env user) (host.sudo findAuthorizedKeys false none) guest
      (fun _ => True) (fun result after => result.stdout = after.image.listing) := by
  have listed := fun x : Choice =>
    elevated_tolerated (perform_true user x) true
      ["find", "/root", "/home", "-name", "authorized_keys"] guest
  refine upholds_sudo trivial (fun _ => trivial) ?_ ?_
  · intro x ran _
    obtain ⟨_, stdout, same⟩ := listed x
    change ran.output.stdout = ran.world.image.listing
    rw [show ran.world = guest from same]
    exact stdout
  · intro x _ _ bad
    exact absurd (listed x).1 bad

theorem upholds_verify (guest : Guest) :
    Upholds (guestStep .passwordless env user) (verifyNoAuthorizedKeys host) guest
      (fun _ => True) (fun _ after => after.image.keyFiles = []) := by
  refine upholds_bind (upholds_find guest) ?_
  intro result after _ listed
  by_cases none : splitWords result.stdout.toList = []
  · simp only [none, if_true]
    exact upholds_done trivial (listing_empty (listed ▸ none))
  · simp only [none, if_false]
    exact upholds_raise trivial

-- Without a password, an image that passes holds no key.
theorem upholds_sanitizeImage (guest : Guest) :
    Upholds (guestStep .passwordless env user) (sanitizeImage host user) guest
      (fun _ => True) (fun _ after => after.image.keyFiles = []) := by
  have any : ∀ {A : Type} (p : RemoteProg A) (w : Guest), Upholds (guestStep .passwordless env user)
      p w (fun _ => True) (fun _ _ => True) :=
    fun p w _ => ⟨trivial, fun _ _ => trivial⟩
  refine upholds_bind (any _ _) (fun _ _ _ _ => ?_)
  refine upholds_bind (any _ _) (fun _ _ _ _ => ?_)
  refine upholds_bind (any _ _) (fun _ _ _ _ => ?_)
  refine upholds_bind (any _ _) (fun _ after _ _ => ?_)
  exact upholds_verify after

end Search

section Password

/-- Every command succeeds and touches no file, and every lock takes effect. -/
def calm : Choice where
  output _ := ⟨0, "", ""⟩
  paths _ paths := paths
  took _ := true
  lost := none
  transfer := .ok ()
  random := []

theorem calm_keeps {user : String} {paths : List Path} (event : Event) (guest : Guest)
    (same : guest.image.paths = paths) :
    (calm.perform user event guest).2.image.paths = paths := by
  by_cases finds : event = .runs .root findAuthorizedKeys.head
  · simpa only [Choice.perform, if_pos finds] using same
  · by_cases idle : event = .runs .user trueCommand
    · simpa only [Choice.perform, if_neg finds, if_pos idle] using same
    · simp only [Choice.perform, if_neg finds, if_neg idle, calm]
      split <;> exact same

theorem calm_ran {user : String} {paths : List Path} (policy : Policy) (stdin : Option String)
    (script : Script) (guest : Guest) (same : guest.image.paths = paths) :
    ((sanitizedGuest user).ran calm policy stdin script guest).world.image.paths = paths :=
  script_keeps (fun guest : Guest => guest.image.paths = paths)
    (fun _ _ _ _ => calm_keeps _ _) (fun _ _ _ _ => calm_keeps _ _) same

variable {secret user : String} {host : RemoteHost} {paths : List Path}

theorem execute_run (script : Script) (policy : Policy) (env : Option String) (guest : Guest) :
    (host.run script false none).execute (guestStep policy env user calm) guest =
      (.returned (.of script.text ((sanitizedGuest user).ran calm policy none script guest).output),
        ((sanitizedGuest user).ran calm policy none script guest).world) :=
  rfl

theorem execute_sudoPassword (nonempty : secret ≠ "") (policy : Policy) (guest : Guest) :
    sudoPassword.execute (guestStep policy (some secret) user calm) guest =
      (.returned secret, guest) := by
  simp [sudoPassword, ask, Prog.perform, Prog.bind, Prog.execute, Environment.step, nonempty]

theorem execute_sudo_first {policy : Policy} {env : Option String} {line : Line} {guest : Guest}
    (good : ((sanitizedGuest user).ran calm policy none (.elevated .nonInteractive line) guest).output.exitStatus
      = 0) :
    (host.sudo line false none).execute (guestStep policy env user calm) guest =
      (.returned (.of (Script.elevated .nonInteractive line).text
          ((sanitizedGuest user).ran calm policy none (.elevated .nonInteractive line) guest).output),
        ((sanitizedGuest user).ran calm policy none (.elevated .nonInteractive line) guest).world) := by
  rw [RemoteHost.sudo, Prog.bind_eq, execute_bind (execute_run _ _ _ _),
    if_pos ((ok_of_iff _ _).mpr good)]
  rfl

theorem calm_sudo (user : String) (host : RemoteHost) (nonempty : secret ≠ "") (line : Line) (guest : Guest)
    (same : guest.image.paths = paths) :
    ∃ result after, (host.sudo line false none).execute
        (guestStep (.password secret) (some secret) user calm) guest = (.returned result, after) ∧
      after.image.paths = paths := by
  let first := (sanitizedGuest user).ran calm (.password secret) none (.elevated .nonInteractive line) guest
  have kept : first.world.image.paths = paths := calm_ran _ _ _ guest same
  by_cases good : first.output.exitStatus = 0
  · exact ⟨_, first.world, execute_sudo_first good, kept⟩
  · let second := (sanitizedGuest user).ran calm (.password secret) (some (secret ++ "\n"))
      (.elevated .readPassword line) first.world
    refine ⟨.of (Script.elevated .readPassword line).text second.output, second.world, ?_,
      calm_ran _ _ _ _ kept⟩
    rw [RemoteHost.sudo, Prog.bind_eq, execute_bind (execute_run _ _ _ _),
      if_neg (fun ok => good ((ok_of_iff _ _).mp ok)), Prog.bind_eq,
      execute_bind (execute_sudoPassword nonempty _ _)]
    rfl

-- The refused search looks like an empty one.
theorem calm_find (secret user : String) (host : RemoteHost) (guest : Guest) :
    ∃ result, (host.sudo findAuthorizedKeys false none).execute
        (guestStep (.password secret) (some secret) user calm) guest = (.returned result, guest) ∧
      result.stdout = "" := by
  have idle := perform_true user calm
  obtain ⟨status, stdout, same⟩ := elevated_tolerated idle false
    ["find", "/root", "/home", "-name", "authorized_keys"] guest
  let first := (sanitizedGuest user).ran calm (.password secret) none
    (.elevated .nonInteractive findAuthorizedKeys) guest
  have good : first.output.exitStatus = 0 := status
  have idle : first.world = guest := same
  refine ⟨.of (Script.elevated .nonInteractive findAuthorizedKeys).text first.output, ?_, stdout⟩
  rw [execute_sudo_first good]
  exact congrArg (Prod.mk _) idle

theorem calm_verify (secret user : String) (host : RemoteHost) (guest : Guest) :
    (verifyNoAuthorizedKeys host).execute
      (guestStep (.password secret) (some secret) user calm) guest = (.returned (), guest) := by
  obtain ⟨result, returned, stdout⟩ := calm_find secret user host guest
  rw [verifyNoAuthorizedKeys, Prog.bind_eq, execute_bind returned, stdout]
  rfl

theorem calm_runAll (user : String) (host : RemoteHost) (nonempty : secret ≠ "") (lines : List Line) (guest : Guest)
    (same : guest.image.paths = paths) :
    ∃ after, (runAll host lines).execute
        (guestStep (.password secret) (some secret) user calm) guest = (.returned (), after) ∧
      after.image.paths = paths := by
  induction lines generalizing guest with
  | nil => exact ⟨guest, rfl, same⟩
  | cons line rest ih =>
    obtain ⟨result, middle, returned, kept⟩ := calm_sudo user host nonempty line guest same
    obtain ⟨after, finished, held⟩ := ih middle kept
    refine ⟨after, ?_, held⟩
    rw [runAll, Prog.bind_eq, execute_bind returned]
    exact finished

-- When every command succeeds and the purge meets no key where it looks, an image
-- passes with all its files.
theorem calm_sanitizeImage (user : String) (host : RemoteHost) (nonempty : secret ≠ "") (guest : Guest) :
    ∃ after, (sanitizeImage host user).execute
        (guestStep (.password secret) (some secret) user calm) guest = (.returned (), after) ∧
      after.image.paths = guest.image.paths := by
  obtain ⟨_, purged, purges, files⟩ := calm_sudo user host nonempty purgeCredentials guest rfl
  obtain ⟨_, locked, locks, files⟩ := calm_sudo user host nonempty (lockAccounts user) purged files
  obtain ⟨cleaned, cleans, files⟩ := calm_runAll user host nonempty purgeTooling locked files
  refine ⟨((sanitizedGuest user).ran calm (.password secret) none (.plain findTooling) cleaned).world, ?_,
    calm_ran _ _ _ _ files⟩
  rw [sanitizeImage, Prog.bind_eq, execute_bind purges, Prog.bind_eq, execute_bind locks,
    Prog.bind_eq, execute_bind cleans, Prog.bind_eq, execute_bind (execute_run _ _ _ _)]
  exact calm_verify secret user host _

/-- The check makes publishing safe exactly when `sudo` asks for no password. -/
theorem published_without_keys_iff {policy : Policy} {env : Option String}
    (supplied : Supplied env policy) :
    (∀ guest, Always (guestStep policy env user) (sanitizeImage host user) guest
      (fun outcome after => outcome = .returned () → after.image.keyFiles = [])) ↔
      policy = .passwordless := by
  cases policy with
  | passwordless =>
    refine ⟨fun _ => rfl, fun _ guest => ?_⟩
    exact Always.mono (upholds_sanitizeImage guest) (fun _ _ ⟨_, returned⟩ => returned ())
  | password secret =>
    refine ⟨fun safe => ?_, fun same => nomatch same⟩
    obtain ⟨nonempty, rfl⟩ := supplied
    let keyed : Guest := ⟨⟨[], [["home", "u", "authorized_keys"]]⟩, []⟩
    obtain ⟨after, returned, files⟩ := calm_sanitizeImage user host nonempty keyed
    have clean := (safe keyed).execute calm
    rw [returned] at clean
    have empty := clean rfl
    rw [Image.keyFiles, files] at empty
    exact nomatch empty

/-- The operational account keeps a copy of its keys where the purge does not look. -/
def keysInBackup : Guest where
  image.accounts := [⟨"vmadmin", 1000, true⟩]
  image.paths := [["home"], ["home", "vmadmin"], ["home", "vmadmin", "backup"],
    ["home", "vmadmin", "backup", "authorized_keys"]]
  locks := []

theorem published_without_keys_passwordless :
    Always (guestStep .passwordless none "vmadmin") (sanitizeImage exampleHost "vmadmin") keysInBackup
      (fun outcome after => outcome = .returned () → after.image.keyFiles = []) :=
  (published_without_keys_iff (show Supplied none .passwordless from trivial)).mpr rfl keysInBackup

/-- Every command succeeds, the password is supplied, and the image is passed with
its key. -/
theorem published_with_backup_key :
    ¬ Always (guestStep (.password "secret") (some "secret") "vmadmin")
      (sanitizeImage exampleHost "vmadmin") keysInBackup
      (fun outcome after => outcome = .returned () → after.image.keyFiles = []) := by
  intro safe
  obtain ⟨after, returned, files⟩ := calm_sanitizeImage "vmadmin" exampleHost
    (show "secret" ≠ "" by decide) keysInBackup
  have clean := safe.execute calm
  rw [returned] at clean
  have empty := clean rfl
  rw [Image.keyFiles, files] at empty
  exact absurd empty (by decide)

end Password

end VmDeploy.Setup
