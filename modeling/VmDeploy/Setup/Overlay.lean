import VmDeploy.Config.Accepted
import VmDeploy.Encoding.TomlReturns
import VmDeploy.Setup.RoundTrip

/-! The overlay that setup writes, and the configuration that comes of it. -/

set_option autoImplicit false

open Effects Python
open Toml hiding Text

namespace VmDeploy.Setup

open Config
open Inventory (Bytes FileChoice FileProg LocalFiles localStep request)

section Sources

variable (rt : Runtime) (platform : Platform) (basePath : String)

/-- `_load_toml` of a file that is there. -/
def sourceOf (bytes : Bytes) : Source :=
  match Utf8.strict bytes with
  | none => .invalid (rt.decodeError bytes)
  | some text =>
      match loads rt.digitLimit text with
      | none =>
          match rt.tomlFault text with
          | .decodeError exc => .invalid exc
          | .valueError exc => .unconverted exc
      | some document => .parsed document

/-- The configuration that a command loads, when its base is as it is. -/
def effectiveConfig (base : Source) (files : LocalFiles) : Except PyError ClusterConfig :=
  loadClusterConfig platform basePath base
    ((files.content (localOverlayPath basePath)).map (sourceOf rt))

/-- What the overlay says. -/
inductive Overlaid (files : LocalFiles) : Table → Prop where
  | absent : files.content (localOverlayPath basePath) = none → Overlaid files []
  | present {bytes : Bytes} {text : Text} {document : Table} :
      files.content (localOverlayPath basePath) = some bytes → Utf8.strict bytes = some text →
      loads rt.digitLimit text = some document → Overlaid files document

end Sources

section Named

variable {rt : Runtime} {entries : Table} {key username keyPath : String} {value : Value}

theorem mem_assign {table : Table} {entry : String × Value}
    (member : entry ∈ Dict.assign table key value) : entry = (key, value) ∨ entry ∈ table := by
  induction table with
  | nil => exact .inl (List.mem_singleton.mp member)
  | cons first table ih =>
    unfold Dict.assign at member
    split at member
    · exact (List.mem_cons.mp member).imp_right (List.mem_cons_of_mem _)
    · rcases List.mem_cons.mp member with rfl | later
      · exact .inr List.mem_cons_self
      · exact (ih later).imp_right (List.mem_cons_of_mem _)

theorem Scalars.assign (scalars : Scalars entries) (bare : IsBareKey key)
    (scalar : isScalarValue value = true) : Scalars (Dict.assign entries key value) where
  distinct := Dict.nodup_assign scalars.distinct key value
  bare entry member := by
    rcases mem_assign member with rfl | old
    · exact bare
    · exact scalars.bare entry old
  scalar entry member := by
    rcases mem_assign member with rfl | old
    · exact scalar
    · exact scalars.scalar entry old

theorem bare_ssh : IsBareKey "ssh" :=
  ⟨by decide, List.all_eq_true.mp (by decide)⟩

theorem bare_user : IsBareKey "user" :=
  ⟨by decide, List.all_eq_true.mp (by decide)⟩

theorem no_scalars : Scalars [] :=
  ⟨List.nodup_nil, fun _ member => absurd member List.not_mem_nil,
    fun _ member => absurd member List.not_mem_nil⟩

theorem single_scalar (bare : IsBareKey key) (scalar : isScalarValue value = true) :
    Scalars [(key, value)] :=
  no_scalars.assign bare scalar

theorem bare_key_path : IsBareKey "key_path" :=
  ⟨by decide, List.all_eq_true.mp (by decide)⟩

/-- `key_path.as_posix()` -/
def posixPath (keyPath : String) : String :=
  String.ofList (pathText keyPath.toList)

def identityTable (ssh : Table) (username keyPath : String) : Table :=
  Dict.assign (Dict.assign ssh "user" (.string username)) "key_path" (.string (posixPath keyPath))

theorem scalars_identity {ssh : Table} (scalars : Scalars ssh) :
    Scalars (identityTable ssh username keyPath) :=
  (scalars.assign bare_user rfl).assign bare_key_path rfl

def Mapping.named (mapping : Mapping) {ssh : Table} (scalars : Scalars ssh)
    (username keyPath : String) : Mapping where
  data := withIdentity mapping.data ssh username keyPath
  distinct := Dict.nodup_assign mapping.distinct _ _
  bare entry member := by
    rcases mem_assign member with rfl | old
    · exact bare_ssh
    · exact mapping.bare entry old
  shallow entry member := by
    rcases mem_assign member with rfl | old
    · exact .inr ⟨_, rfl, scalars_identity scalars⟩
    · exact mapping.shallow entry old

def Mapping.Rereads (mapping : Mapping) (rt : Runtime) : Prop :=
  ∀ value, mapping.Holds value → isScalarValue value = true → Readable rt.digitLimit value

/-- The table of the mapping that names the identity, if there is one. -/
structure SshTable (mapping : Mapping) (ssh : Table) : Prop where
  scalars : Scalars ssh
  there : Dict.get? mapping.data "ssh" = some (.table ssh) ∨
    Dict.get? mapping.data "ssh" = none ∧ ssh = []

theorem sshTable_of {mapping : Mapping} {ssh : Table} (found : SshTable mapping ssh) :
    sshTable rt mapping.data = .ok ssh := by
  rcases found.there with here | ⟨absent, rfl⟩
  · rw [sshTable, here]
  · rw [sshTable, absent]

theorem rereads_named {mapping : Mapping} {ssh : Table} (found : SshTable mapping ssh)
    (rereads : mapping.Rereads rt) (plainUser : ∀ c ∈ username.toList, isPlain c = true)
    (plainPath : ∀ c ∈ (posixPath keyPath).toList, isPlain c = true) :
    (mapping.named found.scalars username keyPath).Rereads rt := by
  have inside : ∀ entry ∈ ssh, mapping.Holds entry.2 := by
    intro entry member
    rcases found.there with here | ⟨-, rfl⟩
    · exact .inr ⟨"ssh", ssh, entry.1, (mem_iff_get? mapping.distinct).mpr here, member⟩
    · cases member
  have renamed : ∀ entry ∈ identityTable ssh username keyPath,
      isScalarValue entry.2 = true → Readable rt.digitLimit entry.2 := by
    intro entry member scalar
    rcases mem_assign member with rfl | first
    · exact plainPath
    · rcases mem_assign first with rfl | old
      · exact plainUser
      · exact rereads _ (inside entry old) scalar
  rintro value (⟨key, member⟩ | ⟨name, entries, key, listed, member⟩) scalar
  · rcases mem_assign member with same | old
    · cases same
      cases scalar
    · exact rereads value (.inl ⟨key, old⟩) scalar
  · rcases mem_assign listed with same | old
    · cases same
      exact renamed _ member scalar
    · exact rereads value (.inr ⟨name, entries, key, old, member⟩) scalar

end Named

section Reread

variable {rt : Runtime} {header : Key} {out : Output} {text rest : Text} {document : Table}
  {digitLimit : Option Nat}

theorem statements_more {fuel more : Nat} (enough : fuel ≤ more)
    (read : statements digitLimit fuel header out text = some document) :
    statements digitLimit more header out text = some document := by
  induction fuel generalizing more header out text with
  | zero => cases read
  | succ fuel ih =>
    obtain ⟨more, rfl⟩ : ∃ less, more = less + 1 := ⟨more - 1, by omega⟩
    have enough : fuel ≤ more := by omega
    unfold statements at read ⊢
    split at read
    · exact read
    · exact ih enough read
    · obtain ⟨⟨next, after, left⟩, steps, read⟩ := Option.bind_eq_some_iff.mp read
      obtain ⟨ended, skips, read⟩ := Option.bind_eq_some_iff.mp read
      simp only [steps, skips, Option.bind_eq_bind, Option.bind_some]
      split at read
      · exact read
      · exact ih enough read
      · cases read

theorem statements_comment {comment : Text} (whole : '\n' ∉ comment)
    (legal : comment.any isIllegal = false) (fuel : Nat) (rest : Text) :
    statements digitLimit (fuel + 1) header out ('#' :: (comment ++ '\n' :: rest)) =
      statements digitLimit fuel header out rest := by
  have inside : ∀ c ∈ comment, decide (c ≠ '\n') = true := by
    intro c member
    simp only [decide_eq_true_eq]
    rintro rfl
    exact whole member
  have taken : (comment ++ '\n' :: rest).takeWhile (· ≠ '\n') = comment := by
    rw [List.takeWhile_append_of_pos inside]
    simp
  have dropped : (comment ++ '\n' :: rest).dropWhile (· ≠ '\n') = '\n' :: rest := by
    rw [List.dropWhile_append_of_pos inside]
    simp
  have visible : skipBlanks ('#' :: (comment ++ '\n' :: rest)) = '#' :: (comment ++ '\n' :: rest) := rfl
  have skipped : skipComment ('#' :: (comment ++ '\n' :: rest)) = some ('\n' :: rest) := by
    rw [skipComment, taken, dropped, legal, if_neg Bool.false_ne_true]
  have step : statement digitLimit header out ('#' :: (comment ++ '\n' :: rest)) =
      some (header, out, '#' :: (comment ++ '\n' :: rest)) := rfl
  rw [statements, visible]
  split
  · next none => cases none
  · next same => exact absurd (List.cons.inj same).1 (by decide)
  · simp only [step, Option.bind_eq_bind, Option.bind_some, visible, skipped]

def firstComment : Text :=
  " Local, machine-specific overrides. GITIGNORED, never committed.".toList

def secondComment : Text :=
  " [ssh] was written by `vmdeploy setup`; other sections are preserved.".toList

theorem overlayHeader_toList : overlayHeader.toList =
    '#' :: (firstComment ++ '\n' :: '#' :: (secondComment ++ '\n' :: ['\n'])) := by
  unfold overlayHeader firstComment secondComment
  rw [String.toList_append, toList_literal rfl, toList_literal rfl, toList_literal rfl,
    toList_literal rfl]
  rfl

theorem legal_comments : (∀ c ∈ firstComment ++ secondComment, c ≠ '\n' ∧ c ≠ '\r') ∧
    (firstComment ++ secondComment).any isIllegal = false := by
  have first : firstComment = _ := toList_literal rfl
  have second : secondComment = _ := toList_literal rfl
  have each : (firstComment ++ secondComment).all (fun c => c != '\n' && c != '\r') = true := by
    rw [first, second]
    rfl
  refine ⟨fun c member => ?_, ?_⟩
  · simpa using List.all_eq_true.mp each c member
  · rw [first, second]
    rfl

-- The two comments and the empty line take a step each, and leave more fuel than the text needs.
theorem loads_overlay (digitLimit : Option Nat) (text : Text) :
    loads digitLimit (overlayHeader.toList ++ text) =
      statements digitLimit
        ((withoutReturns text).length + (firstComment.length + secondComment.length + 3)) []
        ⟨[], [], []⟩ (withoutReturns text) := by
  obtain ⟨clean, legal⟩ := legal_comments
  rw [List.any_append, Bool.or_eq_false_iff] at legal
  have first : ∀ c ∈ firstComment, c ≠ '\n' ∧ c ≠ '\r' :=
    fun c member => clean c (List.mem_append_left _ member)
  have second : ∀ c ∈ secondComment, c ≠ '\n' ∧ c ≠ '\r' :=
    fun c member => clean c (List.mem_append_right _ member)
  have none : '\r' ∉ overlayHeader.toList := by
    have one : '\r' ∉ firstComment := fun member => (first _ member).2 rfl
    have two : '\r' ∉ secondComment := fun member => (second _ member).2 rfl
    rw [overlayHeader_toList]
    simp [one, two]
  rw [loads, withoutReturns_front none, overlayHeader_toList]
  generalize withoutReturns text = source
  have length : ('#' :: (firstComment ++ '\n' :: '#' :: (secondComment ++ '\n' :: ['\n'])) ++
      source).length + 1 = source.length + (firstComment.length + secondComment.length + 3) + 3 := by
    simp only [List.length_append, List.length_cons, List.length_nil]
    omega
  have apart : '#' :: (firstComment ++ '\n' :: '#' :: (secondComment ++ '\n' :: ['\n'])) ++ source =
      '#' :: (firstComment ++ '\n' :: '#' :: (secondComment ++ '\n' :: '\n' :: source)) := by
    simp
  rw [length, apart, statements_comment (fun member => (first _ member).1 rfl) legal.1,
    statements_comment (fun member => (second _ member).1 rfl) legal.2, statements_newline]

theorem loads_header (read : loads digitLimit text = some document) :
    loads digitLimit (overlayHeader.toList ++ text) = some document := by
  rw [loads_overlay]
  exact statements_more (by omega) read

theorem get?_parts (mapping : Mapping) (key : String) :
    Dict.get? (mapping.scalars ++ mapping.tables.map asEntry) key = Dict.get? mapping.data key := by
  refine Option.ext fun value => ?_
  rw [← mem_iff_get? (distinct_parts mapping), ← mem_iff_get? mapping.distinct]
  exact (perm_parts mapping).mem_iff

-- What is written of a mapping that comes back is read as the mapping.
theorem loads_written {mapping : Mapping} (rereads : mapping.Rereads rt)
    (some_data : mapping.data ≠ []) :
    ∃ document, loads rt.digitLimit (overlayHeader ++ emitToml rt mapping.data).toList =
        some document ∧ (Dict.keys document).Nodup ∧
      ∀ key, Dict.get? document key = Dict.get? mapping.data key := by
  refine ⟨_, ?_, distinct_parts mapping, get?_parts mapping⟩
  rw [String.toList_append, emitToml_text some_data]
  exact loads_header (loads_readable rereads)

end Reread

section Configuration

variable {platform : Platform} {document other table named : Table} {config : ClusterConfig}
  {user keyPath : String}

theorem bind_ok {A B : Type} {first : Except PyError A} {next : A → Except PyError B} {result : B}
    (ok : first.bind next = .ok result) : ∃ value, first = .ok value ∧ next value = .ok result := by
  cases first with
  | error error => cases ok
  | ok value => exact ⟨value, rfl, ok⟩

theorem sshConfig_named {ssh : SSHConfig} (reads : sshConfig platform table = .ok ssh)
    (newUser : requireStr named "user" "ssh" = .ok user)
    (newPath : requirePath platform named "key_path" "ssh" = .ok keyPath)
    (same : ∀ key, key ≠ "user" → key ≠ "key_path" → Dict.get? named key = Dict.get? table key) :
    sshConfig platform named = .ok { ssh with user := user, keyPath := keyPath } := by
  have connect := same "connect_timeout_seconds" (by decide) (by decide)
  have command := same "command_timeout_seconds" (by decide) (by decide)
  obtain ⟨oldUser, -, reads⟩ := bind_ok reads
  obtain ⟨oldPath, -, reads⟩ := bind_ok reads
  obtain ⟨connects, first, reads⟩ := bind_ok reads
  obtain ⟨commands, second, reads⟩ := bind_ok reads
  cases reads
  rw [requireInt, ← connect, ← requireInt] at first
  rw [requireInt, ← command, ← requireInt] at second
  rw [sshConfig, newUser, ok_bind, newPath, ok_bind, first, ok_bind, second, ok_bind]

-- Documents that differ in the SSH settings only lead to configurations that do.
theorem parseDocument_named (loads : parseDocument platform document = .ok config)
    (there : requiredTable document "ssh" = .ok table)
    (here : requiredTable other "ssh" = .ok named)
    (same : ∀ key, key ≠ "ssh" → Dict.get? other key = Dict.get? document key)
    (renamed : sshConfig platform table = .ok config.ssh →
      sshConfig platform named = .ok { config.ssh with user := user, keyPath := keyPath }) :
    parseDocument platform other =
      .ok { config with ssh := { config.ssh with user := user, keyPath := keyPath } } := by
  have tables : ∀ name, name ≠ "ssh" → requiredTable other name = requiredTable document name := by
    intro name differs
    rw [requiredTable, same name differs, requiredTable]
  have backends := same "backend" (by decide)
  -- the load of one document is taken apart, and that of the other is put together from its parts
  rw [parseDocument, there, ok_bind] at loads
  obtain ⟨vboxTable, vbox, loads⟩ := bind_ok loads
  obtain ⟨jumpTable, jump, loads⟩ := bind_ok loads
  obtain ⟨inventoryTable, inventory, loads⟩ := bind_ok loads
  obtain ⟨websiteTable, website, loads⟩ := bind_ok loads
  obtain ⟨buildTable, build, loads⟩ := bind_ok loads
  obtain ⟨ssh, first, loads⟩ := bind_ok loads
  obtain ⟨vboxFields, second, loads⟩ := bind_ok loads
  obtain ⟨jumpFields, third, loads⟩ := bind_ok loads
  obtain ⟨nodes, fourth, loads⟩ := bind_ok loads
  obtain ⟨inventoryFields, fifth, loads⟩ := bind_ok loads
  obtain ⟨websiteFields, sixth, loads⟩ := bind_ok loads
  obtain ⟨buildFields, seventh, loads⟩ := bind_ok loads
  obtain ⟨_, crossed, loads⟩ := bind_ok loads
  cases loads
  rw [parseDocument, here, ok_bind, tables "virtualbox" (by decide), vbox, ok_bind,
    tables "jump" (by decide), jump, ok_bind, tables "inventory" (by decide), inventory, ok_bind,
    tables "website" (by decide), website, ok_bind, tables "build" (by decide), build, ok_bind,
    renamed first, ok_bind, second, ok_bind, third, ok_bind, backends, fourth, ok_bind, fifth,
    ok_bind, sixth, ok_bind, seventh, ok_bind]
  have unnamed : ∀ ssh' : SSHConfig, validateCrossReferences
      ⟨ssh', vboxFields, jumpFields, nodes, inventoryFields, websiteFields, buildFields⟩ = .ok () :=
    fun _ => crossed
  exact congrArg (Except.bind · _) (unnamed _)

theorem get?_overrideUser (sshUser : String) (document : Table) {key : String} (apart : key ≠ "ssh") :
    Dict.get? (overrideUser sshUser document) key = Dict.get? document key := by
  unfold overrideUser
  split
  · rfl
  · split
    · rw [Dict.get?_assign, if_neg (Ne.symm apart)]
    · rfl

def overridden (sshUser : String) (table : Table) : Table :=
  if trimmed sshUser = "" then table
  else Dict.assign table "user" (.string (trimmed sshUser))

theorem requiredTable_overrideUser {sshUser : String}
    (there : Dict.get? document "ssh" = some (.table table)) :
    requiredTable (overrideUser sshUser document) "ssh" = .ok (overridden sshUser table) := by
  unfold overrideUser overridden
  split
  · rw [requiredTable, there]
  · rw [there, requiredTable, Dict.get?_assign, if_pos rfl]

end Configuration

section Merged

variable {base ssh named : Table} {username keyPath : String}

theorem get?_identityTable (ssh : Table) (username keyPath key : String) :
    Dict.get? (identityTable ssh username keyPath) key =
      if "key_path" = key then some (.string (posixPath keyPath))
      else if "user" = key then some (.string username) else Dict.get? ssh key := by
  rw [identityTable, Dict.get?_assign, Dict.get?_assign]

theorem distinct_identity (distinct : (Dict.keys ssh).Nodup) :
    (Dict.keys (identityTable ssh username keyPath)).Nodup :=
  Dict.nodup_assign (Dict.nodup_assign distinct _ _) _ _

-- The merged table of the identity: its two fields, and the others as they were.
theorem merge_identity (before : Option Value) (distinct : (Dict.keys ssh).Nodup) :
    ∃ old new, mergeValue before (.table ssh) = .table old ∧
      mergeValue before (.table (identityTable ssh username keyPath)) = .table new ∧
      ∀ key, Dict.get? new key = if "key_path" = key then some (.string (posixPath keyPath))
        else if "user" = key then some (.string username) else Dict.get? old key := by
  have plain : ∀ existing text, mergeValue existing (.string text) = .string text := by
    intro existing text
    rw [mergeValue]
    simp
  have single : (∀ entries, before ≠ some (.table entries)) → ∀ entries,
      mergeValue before (.table entries) = .table entries := by
    intro other entries
    rw [mergeValue]
    exact other
  cases before with
  | none => exact ⟨ssh, _, single (by simp) _, single (by simp) _, get?_identityTable _ _ _⟩
  | some value =>
    cases value with
    | table inner =>
      refine ⟨deepMerge inner ssh, deepMerge inner (identityTable ssh username keyPath), ?_, ?_, ?_⟩
      · rw [mergeValue]
      · rw [mergeValue]
      · intro key
        rw [get?_deepMerge inner (distinct_identity distinct), get?_identityTable,
          get?_deepMerge inner distinct]
        split
        · rw [Option.map_some, plain, Option.some_or]
        · split
          · rw [Option.map_some, plain, Option.some_or]
          · rfl
    | _ => exact ⟨ssh, _, single (by simp) _, single (by simp) _, get?_identityTable _ _ _⟩

end Merged

section Written

variable {rt : Runtime} {platform : Platform} {basePath username keyPath : String} {base : Table}
  {files after : LocalFiles} {mapping : Mapping} {ssh : Table} {config : ClusterConfig}

/-- An account and a key path that are written, trimmed and expanded as they are. -/
structure Literal (platform : Platform) (username keyPath : String) : Prop where
  account : trimmed username = username ∧ username ≠ ""
  plainAccount : ∀ c ∈ username.toList, isPlain c = true
  path : trimmed (posixPath keyPath) = posixPath keyPath ∧ posixPath keyPath ≠ ""
  plainPath : ∀ c ∈ (posixPath keyPath).toList, isPlain c = true
  expanded : platform.expanduser (platform.expandvars (posixPath keyPath)) = posixPath keyPath
  known : '%' ∉ (posixPath keyPath).toList ∧ '$' ∉ (posixPath keyPath).toList

/-- The new identity, unless the environment names another account. -/
def renamed (platform : Platform) (config : ClusterConfig) (username keyPath : String) :
    ClusterConfig :=
  let user := if trimmed platform.sshUser = "" then username else config.ssh.user
  { config with ssh := { config.ssh with user := user, keyPath := posixPath keyPath } }

theorem requireStr_found {table : Table} {key context text : String}
    (found : Dict.get? table key = some (.string text)) (fixed : trimmed text = text)
    (some_text : text ≠ "") : requireStr table key context = .ok text := by
  simp only [requireStr, found, fixed, if_neg some_text]

theorem table_of_overrideUser {sshUser : String} {document table : Table}
    (found : requiredTable (overrideUser sshUser document) "ssh" = .ok table) :
    ∃ entries, Dict.get? document "ssh" = some (.table entries) ∧ table = overridden sshUser entries := by
  cases there : Dict.get? document "ssh" with
  | none =>
    have same : overrideUser sshUser document = document := by simp [overrideUser, there]
    rw [same, requiredTable, there] at found
    cases found
  | some value =>
    cases value with
    | table entries =>
      rw [requiredTable_overrideUser there] at found
      cases found
      exact ⟨entries, rfl, rfl⟩
    | _ =>
      have same : overrideUser sshUser document = document := by simp [overrideUser, there]
      rw [same, requiredTable, there] at found
      cases found

theorem get?_overridden {sshUser key : String} {table : Table} (apart : key ≠ "user") :
    Dict.get? (overridden sshUser table) key = Dict.get? table key := by
  unfold overridden
  split
  · rfl
  · rw [Dict.get?_assign, if_neg (Ne.symm apart)]

theorem Literal.reads (literal : Literal platform username keyPath) {table : Table}
    (there : Dict.get? table "key_path" = some (.string (posixPath keyPath))) :
    requirePath platform table "key_path" "ssh" = .ok (posixPath keyPath) := by
  rw [requirePath, requireStr_found there literal.path.1 literal.path.2, ok_bind]
  simp only [literal.expanded, literal.known.1, literal.known.2, or_self, if_false]

-- The settings of the merged document with the new identity.
theorem sshConfig_overridden {old new : Table} {settings : SSHConfig} {shown : String}
    (account : trimmed username = username ∧ username ≠ "")
    (path : requirePath platform (overridden platform.sshUser new) "key_path" "ssh" = .ok shown)
    (fields : ∀ key, Dict.get? new key = if "key_path" = key then some (.string (posixPath keyPath))
      else if "user" = key then some (.string username) else Dict.get? old key)
    (reads : sshConfig platform (overridden platform.sshUser old) = .ok settings) :
    sshConfig platform (overridden platform.sshUser new) = .ok { settings with
      user := if trimmed platform.sshUser = "" then username else settings.user
      keyPath := shown } := by
  refine sshConfig_named reads ?_ path ?_
  · by_cases unset : trimmed platform.sshUser = ""
    · rw [if_pos unset, overridden, if_pos unset]
      exact requireStr_found (fields "user") account.1 account.2
    · obtain ⟨user, first, reads⟩ := bind_ok reads
      obtain ⟨path, -, reads⟩ := bind_ok reads
      obtain ⟨connect, -, reads⟩ := bind_ok reads
      obtain ⟨command, -, reads⟩ := bind_ok reads
      cases reads
      rw [overridden, if_neg unset, requireStr, Dict.get?_assign, if_pos rfl] at first
      rw [if_neg unset, overridden, if_neg unset, requireStr, Dict.get?_assign, if_pos rfl]
      exact first
  · intro key notUser notPath
    rw [get?_overridden notUser, get?_overridden notUser, fields, if_neg (Ne.symm notPath),
      if_neg (Ne.symm notUser)]

theorem load_merged (path : String) (base document : Table) :
    loadClusterConfig platform path (.parsed base) (some (.parsed document)) =
      parseDocument platform (overrideUser platform.sshUser (deepMerge base document)) := by
  have merged : mergedDocument path (.parsed base) (some (.parsed document)) =
      .ok (deepMerge base document) := rfl
  rw [loadClusterConfig, merged, ok_bind]

theorem load_alone (path : String) (base : Table) :
    loadClusterConfig platform path (.parsed base) none =
      parseDocument platform (overrideUser platform.sshUser base) := by
  have merged : mergedDocument path (.parsed base) none = .ok base := rfl
  rw [loadClusterConfig, merged, ok_bind]

theorem named_nonempty (document ssh : Table) (username keyPath : String) :
    withIdentity document ssh username keyPath ≠ [] := by
  intro none
  have here : Dict.get? (withIdentity document ssh username keyPath) "ssh" = _ :=
    Dict.get?_assign _ _ _ _
  rw [none, if_pos rfl] at here
  cases here

theorem sourceOf_parsed {bytes : Bytes} {text : Text} {document : Table}
    (decoded : Utf8.strict bytes = some text) (read : loads rt.digitLimit text = some document) :
    sourceOf rt bytes = .parsed document := by
  simp only [sourceOf, decoded, read]

theorem parsed_overlaid {document : Table} (overlaid : Overlaid rt basePath files document)
    (loaded : effectiveConfig rt platform basePath (.parsed base) files = .ok config) :
    parseDocument platform (overrideUser platform.sshUser (deepMerge base document)) =
      .ok config := by
  cases overlaid with
  | absent none =>
    rw [effectiveConfig, none, Option.map_none, load_alone] at loaded
    rwa [deepMerge]
  | present there decoded read =>
    rwa [effectiveConfig, there, Option.map_some, sourceOf_parsed decoded read, load_merged] at loaded

-- An overlay that differs in the identity only leads to a configuration that does.
theorem parseDocument_renamed {document read : Table} {shown : String}
    (account : trimmed username = username ∧ username ≠ "")
    (path : ∀ table : Table, Dict.get? table "key_path" = some (.string (posixPath keyPath)) →
      requirePath platform table "key_path" "ssh" = .ok shown)
    (distinct : (Dict.keys document).Nodup) (inner : (Dict.keys ssh).Nodup)
    (found : Dict.get? document "ssh" = some (.table ssh) ∨ Dict.get? document "ssh" = none ∧ ssh = [])
    (before : parseDocument platform (overrideUser platform.sshUser (deepMerge base document)) =
      .ok config)
    (readDistinct : (Dict.keys read).Nodup)
    (same : ∀ key, Dict.get? read key = Dict.get? (withIdentity document ssh username keyPath) key) :
    parseDocument platform (overrideUser platform.sshUser (deepMerge base read)) =
      .ok { config with ssh := { config.ssh with
        user := if trimmed platform.sshUser = "" then username else config.ssh.user
        keyPath := shown } } := by
  have entry : ∀ key, Dict.get? read key = if "ssh" = key then
      some (.table (identityTable ssh username keyPath)) else Dict.get? document key :=
    fun key => (same key).trans (Dict.get?_assign _ _ _ _)
  obtain ⟨table, required, -⟩ := bind_ok before
  obtain ⟨entries, there, rfl⟩ := table_of_overrideUser required
  obtain ⟨old, new, isOld, isNew, fields⟩ :=
    @merge_identity ssh username keyPath (Dict.get? base "ssh") inner
  -- an overlay without the table says the same as one with an empty table
  have merged : mergeValue (Dict.get? base "ssh") (.table ssh) = .table entries := by
    rw [get?_deepMerge base distinct] at there
    rcases found with present | ⟨absent, rfl⟩
    · rw [present] at there
      exact Option.some.inj there
    · rw [absent] at there
      have based : Dict.get? base "ssh" = some (.table entries) := there
      rw [based, mergeValue]
      rfl
  obtain rfl : old = entries := Value.table.inj (isOld.symm.trans merged)
  have here : Dict.get? (deepMerge base read) "ssh" = some (.table new) := by
    rw [get?_deepMerge base readDistinct, entry, if_pos rfl, Option.map_some, Option.some_or, isNew]
  have shows : requirePath platform (overridden platform.sshUser new) "key_path" "ssh" = .ok shown :=
    path _ ((get?_overridden (by decide)).trans ((fields "key_path").trans (if_pos rfl)))
  refine parseDocument_named before required (requiredTable_overrideUser here) ?_
    (sshConfig_overridden account shows fields)
  intro key apart
  rw [get?_overrideUser _ _ apart, get?_overrideUser _ _ apart, get?_deepMerge base readDistinct,
    get?_deepMerge base distinct, entry, if_neg (Ne.symm apart)]

-- Where the overlay is the text of the named mapping, a load gives the new identity and
-- otherwise the same configuration.
theorem effectiveConfig_written (literal : Literal platform username keyPath)
    (overlaid : Overlaid rt basePath files mapping.data) (found : SshTable mapping ssh)
    (rereads : mapping.Rereads rt)
    (loaded : effectiveConfig rt platform basePath (.parsed base) files = .ok config)
    (written : after.content (localOverlayPath basePath) = some
      (Utf8.encode (overlayHeader ++ emitToml rt
        (withIdentity mapping.data ssh username keyPath)).toList)) :
    effectiveConfig rt platform basePath (.parsed base) after =
      .ok (renamed platform config username keyPath) := by
  obtain ⟨document, read, distinct, same⟩ := loads_written
    (rereads_named found rereads literal.plainAccount literal.plainPath)
    (named_nonempty mapping.data ssh username keyPath)
  change loads rt.digitLimit (overlayHeader ++ emitToml rt
    (withIdentity mapping.data ssh username keyPath)).toList = some document at read
  rw [effectiveConfig, written, Option.map_some, sourceOf_parsed (Utf8.strict_encode _) read,
    load_merged]
  exact parseDocument_renamed literal.account (fun _ there => literal.reads there)
    mapping.distinct found.scalars.distinct found.there (parsed_overlaid overlaid loaded) distinct same

def Beside (basePath : String) (before after : LocalFiles) : Prop :=
  ∀ path, path ≠ localOverlayPath basePath → after.content path = before.content path

theorem content_written {x : FileChoice} {path : String} {content : Bytes}
    (succeeds : x.fails = none) : (files.written x path content).content path = some content := by
  rw [LocalFiles.written, succeeds]
  exact Function.update_self _ _ _

/-- `write_local_overlay` behind its reading. -/
def saveIdentity (rt : Runtime) (basePath username keyPath : String) (existing : Table) :
    FileProg String := do
  let ssh ← .ofExcept (sshTable rt existing)
  match emission rt (withIdentity existing ssh username keyPath) with
  | none => .raise (tooManyDigits rt)
  | some text => do
      let content := Utf8.encode (overlayHeader.toList ++ text)
      orVmDeployError s!"Cannot write local overlay {localOverlayPath basePath}"
        (← request (.writeBytes (localOverlayPath basePath) content))
      pure (localOverlayPath basePath)

theorem emission_rereads (rereads : mapping.Rereads rt) :
    emission rt mapping.data = some (emitToml rt mapping.data).toList := by
  obtain ⟨text, emitted⟩ : ∃ text, emission rt mapping.data = some text :=
    emission_some_iff.mpr fun value held => rereads (.integer value) held rfl
  rw [emission] at emitted ⊢
  split at emitted
  · next all => rw [if_pos all]
  · cases emitted

-- What has been read is written with the new identity.
theorem ends_saved (literal : Literal platform username keyPath)
    (overlaid : Overlaid rt basePath files mapping.data) (found : SshTable mapping ssh)
    (rereads : mapping.Rereads rt)
    (loaded : effectiveConfig rt platform basePath (.parsed base) files = .ok config) :
    Always localStep (saveIdentity rt basePath username keyPath mapping.data) files
      (Ends (Beside basePath files) fun overlay after => overlay = localOverlayPath basePath ∧
        Beside basePath files after ∧
        effectiveConfig rt platform basePath (.parsed base) after =
          .ok (renamed platform config username keyPath)) := by
  have emitted : emission rt (withIdentity mapping.data ssh username keyPath) =
      some (emitToml rt (withIdentity mapping.data ssh username keyPath)).toList :=
    emission_rereads (rereads_named found rereads literal.plainAccount literal.plainPath)
  rw [saveIdentity, sshTable_of found]
  simp only [Prog.ofExcept, Prog.bind_eq, Prog.bind, emitted]
  refine always_call (fun _ _ => rfl) ?_
  intro x
  let content := Utf8.encode (overlayHeader.toList ++
    (emitToml rt (withIdentity mapping.data ssh username keyPath)).toList)
  have beside : Beside basePath files (files.written x (localOverlayPath basePath) content) :=
    fun _ apart => Inventory.written_elsewhere x content apart
  have stepped : localStep x (.writeBytes (localOverlayPath basePath) content) files =
      (x.reply (), files.written x (localOverlayPath basePath) content) := rfl
  rw [stepped]
  cases fails : x.fails with
  | some message =>
    rw [FileChoice.reply, fails]
    exact always_raise beside
  | none =>
    rw [FileChoice.reply, fails]
    refine always_done ⟨rfl, beside, ?_⟩
    refine effectiveConfig_written literal overlaid found rereads loaded ?_
    rw [String.toList_append]
    exact content_written fails

-- Reading the overlay comes first, and changes nothing.
theorem ends_writeLocalOverlay {document : Table} {post : String → LocalFiles → Prop}
    (overlaid : Overlaid rt basePath files document)
    (saved : Always localStep (saveIdentity rt basePath username keyPath document) files
      (Ends (Beside basePath files) post)) :
    Always localStep (writeLocalOverlay rt basePath username keyPath) files
      (Ends (Beside basePath files) post) := by
  refine always_call (fun _ _ => rfl) ?_
  intro x
  have asked : localStep x (.isFile (localOverlayPath basePath)) files =
      (x.reply (files.content (localOverlayPath basePath)).isSome, files) := rfl
  rw [asked]
  cases fails : x.fails with
  | some message =>
    rw [FileChoice.reply, fails]
    exact always_raise fun _ _ => rfl
  | none =>
    rw [FileChoice.reply, fails]
    cases overlaid with
    | absent none =>
      rw [none]
      exact saved
    | @present bytes text document there decoded read =>
      -- setup reads the file with universal newlines, a load decodes it as it is
      have alike := loads_universalNewlines read
      rw [there]
      refine always_call (fun _ _ => rfl) ?_
      intro y
      have opened : localStep y (.readBytes (localOverlayPath basePath)) files =
          (y.reply bytes, files) := by
        rw [localStep, there]
      rw [opened]
      cases fails : y.fails with
      | some message =>
        rw [FileChoice.reply, fails]
        exact always_raise fun _ _ => rfl
      | none =>
        rw [FileChoice.reply, fails]
        simp only [orVmDeployError, Prog.bind_eq, Prog.bind, decoded, alike]
        exact saved

/-- After `write_local_overlay` has returned, the next load succeeds with the new identity and
otherwise the same configuration. Wherever it fails or stops, no other file has been changed. -/
theorem overlay_names_identity (literal : Literal platform username keyPath)
    (overlaid : Overlaid rt basePath files mapping.data) (found : SshTable mapping ssh)
    (rereads : mapping.Rereads rt)
    (loaded : effectiveConfig rt platform basePath (.parsed base) files = .ok config) :
    Always localStep (writeLocalOverlay rt basePath username keyPath) files
      (Ends (Beside basePath files) fun overlay after => overlay = localOverlayPath basePath ∧
        Beside basePath files after ∧
        effectiveConfig rt platform basePath (.parsed base) after =
          .ok (renamed platform config username keyPath)) :=
  ends_writeLocalOverlay overlaid (ends_saved literal overlaid found rereads loaded)

def emptyMapping : Mapping where
  data := []
  distinct := List.nodup_nil
  bare := fun _ member => absurd member List.not_mem_nil
  shallow := fun _ member => absurd member List.not_mem_nil

theorem empty_ssh : SshTable emptyMapping [] where
  scalars := no_scalars
  there := .inr ⟨rfl, rfl⟩

theorem empty_rereads (rt : Runtime) : emptyMapping.Rereads rt := by
  rintro value (⟨key, member⟩ | ⟨name, entries, key, listed, member⟩)
  · cases member
  · cases listed

def freshFiles : LocalFiles :=
  ⟨fun _ => none, []⟩

theorem operator_key_path : posixPath "keys/operator_key" = "keys/operator_key" := by
  rfl

theorem literal_operator : Literal examplePlatform "operator" "keys/operator_key" := by
  constructor
  · decide
  · exact List.all_eq_true.mp (by decide)
  · rw [operator_key_path]
    decide
  · rw [operator_key_path]
    exact List.all_eq_true.mp rfl
  · rw [operator_key_path]
    rfl
  · rw [operator_key_path]
    decide

def localMapping : Mapping where
  data :=
    [("ssh", .table [("user", .string "deploy")]), ("virtualbox", .table [("memory_mb", .integer 2048)])]
  distinct := by decide
  bare := by
    rintro entry (_ | ⟨_, _ | ⟨_, none⟩⟩)
    · exact bare_ssh
    · exact ⟨show "virtualbox" ≠ "" by decide, List.all_eq_true.mp (by decide)⟩
    · cases none
  shallow := by
    rintro entry (_ | ⟨_, _ | ⟨_, none⟩⟩)
    · exact .inr ⟨_, rfl, single_scalar bare_user rfl⟩
    · exact .inr ⟨_, rfl, single_scalar ⟨by decide, List.all_eq_true.mp (by decide)⟩ rfl⟩
    · cases none

theorem local_rereads : localMapping.Rereads (limitedRuntime 4300) := by
  rintro value (⟨key, member⟩ | ⟨name, entries, key, listed, member⟩) scalar
  · rcases member with _ | ⟨_, _ | ⟨_, none⟩⟩
    · cases scalar
    · cases scalar
    · cases none
  · rcases listed with _ | ⟨_, _ | ⟨_, none⟩⟩
    · cases List.mem_singleton.mp member
      exact List.all_eq_true.mp rfl
    · cases List.mem_singleton.mp member
      exact show converts (some 4300) 2048 = true by rfl
    · cases none

def localFiles : LocalFiles :=
  ⟨fun path => if path = localOverlayPath "config/cluster.toml" then
    some (Utf8.encode (overlayHeader ++ emitToml (limitedRuntime 4300) localMapping.data).toList)
    else none, []⟩

theorem local_read : loads (limitedRuntime 4300).digitLimit
    (overlayHeader ++ emitToml (limitedRuntime 4300) localMapping.data).toList =
      some localMapping.data := by
  rw [String.toList_append, emitToml_text (List.cons_ne_nil _ _)]
  exact loads_header (loads_readable local_rereads)

theorem local_there : localFiles.content (localOverlayPath "config/cluster.toml") =
    some (Utf8.encode (overlayHeader ++ emitToml (limitedRuntime 4300) localMapping.data).toList) := by
  simp only [localFiles, if_true]

theorem local_overlaid :
    Overlaid (limitedRuntime 4300) "config/cluster.toml" localFiles localMapping.data :=
  .present local_there (Utf8.strict_encode _) local_read

def stockDocument : Toml.Table :=
  exampleDocument "apjump" (exampleNodes.map fun node => exampleBackend node.vmName node.hostname)

def localCluster : ClusterConfig :=
  let cluster := exampleCluster "apjump" exampleNodes
  { cluster with
    ssh := { cluster.ssh with user := "deploy" }
    virtualbox := { cluster.virtualbox with memoryMb := 2048 } }

theorem local_loads : effectiveConfig (limitedRuntime 4300) examplePlatform "config/cluster.toml"
    (.parsed (exampleDocument "apjump" (exampleNodes.map fun node =>
      exampleBackend node.vmName node.hostname))) localFiles = .ok localCluster := by
  rw [effectiveConfig, local_there, Option.map_some,
    sourceOf_parsed (Utf8.strict_encode _) local_read]
  rfl

theorem later_setup_names_operator :
    Always localStep (writeLocalOverlay (limitedRuntime 4300) "config/cluster.toml" "operator"
        "keys/operator_key") localFiles
      (Ends (Beside "config/cluster.toml" localFiles) fun overlay after =>
        overlay = localOverlayPath "config/cluster.toml" ∧
        Beside "config/cluster.toml" localFiles after ∧
        effectiveConfig (limitedRuntime 4300) examplePlatform "config/cluster.toml"
            (.parsed (exampleDocument "apjump" (exampleNodes.map fun node =>
              exampleBackend node.vmName node.hostname))) after =
          .ok (renamed examplePlatform localCluster "operator" "keys/operator_key")) :=
  overlay_names_identity literal_operator local_overlaid
    ⟨single_scalar bare_user rfl, .inl rfl⟩ local_rereads local_loads

end Written

end VmDeploy.Setup
