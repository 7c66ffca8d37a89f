import VmDeploy.Setup.Overlay

/-! Which overlays come through `write_local_overlay`. -/

set_option autoImplicit false

open Effects Python
open Toml hiding Text

namespace VmDeploy.Setup

open Config
open Inventory (Bytes FileChoice LocalFiles localStep orRaise request)

section Written

variable (rt : Runtime)

-- `render` writes whatever is no scalar as the text of its `str`.
def writtenScalar : Value → Value
  | .boolean value => .boolean value
  | .integer value => .integer value
  | .string text => .string text
  | value => .string ((rt.str value).getD "")

def writtenEntries (entries : Table) : Table :=
  entries.map fun entry => (entry.1, writtenScalar rt entry.2)

def writtenValue : Value → Value
  | .table entries => .table (writtenEntries rt entries)
  | value => writtenScalar rt value

/-- A document as the text of `_emit_toml` shows it. -/
def writtenDocument (document : Table) : Table :=
  document.map fun entry => (entry.1, writtenValue rt entry.2)

variable {rt}

theorem isScalarValue_written (value : Value) : isScalarValue (writtenScalar rt value) = true := by
  cases value <;> rfl

theorem entryLine_written (key : String) (value : Value) :
    s!"{key} = {renderValue rt (writtenScalar rt value)}" = s!"{key} = {renderValue rt value}" := by
  cases value <;> rfl

theorem entryLines_written (entries : Table) :
    entryLines rt (writtenEntries rt entries) = entryLines rt entries := by
  rw [entryLines, writtenEntries, List.map_map, entryLines]
  exact List.map_congr_left fun entry _ => entryLine_written entry.1 entry.2

theorem tableLines_written (entry : String × Value) :
    tableLines rt (entry.1, writtenValue rt entry.2) = tableLines rt entry := by
  obtain ⟨name, value⟩ := entry
  cases value with
  | table entries => simp only [writtenValue, tableLines, entryLines_written]
  | _ => rfl

theorem scalarLines_written (document : Table) :
    entryLines rt ((writtenDocument rt document).filter fun entry => !isMapping entry.2) =
      entryLines rt (document.filter fun entry => !isMapping entry.2) := by
  induction document with
  | nil => rfl
  | cons entry document ih =>
    obtain ⟨key, value⟩ := entry
    cases value with
    | table entries => exact ih
    | _ => exact congrArg (List.cons _) ih

theorem emitToml_written (document : Table) :
    emitToml rt (writtenDocument rt document) = emitToml rt document := by
  have tables : (writtenDocument rt document).flatMap (tableLines rt) =
      document.flatMap (tableLines rt) := by
    rw [writtenDocument, List.flatMap_map]
    exact congrArg (List.flatMap · document) (funext tableLines_written)
  rw [emitToml, scalarLines_written, tables, emitToml]

theorem rendersScalar_written {value : Value} (renders : rendersScalar rt value = true) :
    rendersScalar rt (writtenScalar rt value) = true := by
  cases value with
  | integer value => exact renders
  | _ => rfl

theorem renders_written {value : Value} (rendered : renders rt value = true) :
    renders rt (writtenValue rt value) = true := by
  cases value with
  | table entries =>
    refine List.all_eq_true.mpr fun entry member => ?_
    obtain ⟨old, here, rfl⟩ := List.mem_map.mp member
    exact rendersScalar_written (List.all_eq_true.mp rendered old here)
  | integer value => exact rendered
  | _ => rfl

theorem emission_written {document : Table} {text : Text} (emitted : emission rt document = some text) :
    emission rt (writtenDocument rt document) = some text := by
  rw [emission] at emitted ⊢
  split at emitted
  · next all =>
    have whole : (writtenDocument rt document).all (fun entry => renders rt entry.2) = true := by
      refine List.all_eq_true.mpr fun entry member => ?_
      obtain ⟨old, here, rfl⟩ := List.mem_map.mp member
      exact renders_written (List.all_eq_true.mp all old here)
    rw [if_pos whole, emitToml_written]
    exact emitted
  · cases emitted

theorem get?_mapped (change : Value → Value) (table : Table) (key : String) :
    Dict.get? (table.map fun entry => (entry.1, change entry.2)) key =
      (Dict.get? table key).map change := by
  induction table with
  | nil => rfl
  | cons entry table ih =>
    rw [List.map_cons, Dict.get?_cons, Dict.get?_cons, ih]
    split <;> rfl

theorem keys_mapped (change : Value → Value) (table : Table) :
    Dict.keys (table.map fun entry => (entry.1, change entry.2)) = Dict.keys table := by
  rw [Dict.keys, List.map_map]
  rfl

end Written

/-- The keys of the document and of its tables are bare ones. -/
structure BareKeys (document : Table) : Prop where
  top : ∀ entry ∈ document, IsBareKey entry.1
  inner : ∀ name entries, (name, .table entries) ∈ document → ∀ entry ∈ entries, IsBareKey entry.1

/-- Every value is read as it is written, or is a table of such values. -/
def Plainly (digitLimit : Option Nat) (document : Table) : Prop :=
  ∀ entry ∈ document, Readable digitLimit entry.2 ∨
    ∃ entries, entry.2 = .table entries ∧ ∀ inside ∈ entries, Readable digitLimit inside.2

section Bare

variable {rt : Runtime} {document : Document}

theorem distinct_inner {table : Table} (keyed : Keyed (.table table)) {name : String} {entries : Table}
    (member : (name, .table entries) ∈ table) : (Dict.keys entries).Nodup :=
  keyed [name] entries <| by
    rw [valueAt_single]
    exact (mem_iff_get? (keyed [] _ rfl)).mp member

def writtenMapping (rt : Runtime) (document : Document) (bare : BareKeys document.entries) : Mapping where
  data := writtenDocument rt document.entries
  distinct := by
    rw [writtenDocument, keys_mapped]
    exact document.keyed [] _ rfl
  bare := by
    intro entry member
    obtain ⟨old, here, rfl⟩ := List.mem_map.mp member
    exact bare.top old here
  shallow := by
    intro entry member
    obtain ⟨⟨name, value⟩, here, rfl⟩ := List.mem_map.mp member
    cases value with
    | table entries =>
      refine .inr ⟨_, rfl, ?_, ?_, ?_⟩
      · rw [writtenEntries, keys_mapped]
        exact distinct_inner document.keyed here
      · intro entry inside
        obtain ⟨old, there, rfl⟩ := List.mem_map.mp inside
        exact bare.inner name entries here old there
      · intro entry inside
        obtain ⟨old, there, rfl⟩ := List.mem_map.mp inside
        exact isScalarValue_written old.2
    | _ => exact .inl rfl

theorem readable_scalar {digitLimit : Option Nat} {value : Value} (readable : Readable digitLimit value) :
    isScalarValue value = true ∧ writtenScalar rt value = value ∧ writtenValue rt value = value := by
  cases value with
  | boolean value => exact ⟨rfl, rfl, rfl⟩
  | integer value => exact ⟨rfl, rfl, rfl⟩
  | string text => exact ⟨rfl, rfl, rfl⟩
  | _ => exact readable.elim

theorem written_plainly {table : Table} (plainly : Plainly rt.digitLimit table) :
    writtenDocument rt table = table := by
  have fixed : ∀ entries : Table, (∀ entry ∈ entries, Readable rt.digitLimit entry.2) →
      writtenEntries rt entries = entries := by
    intro entries readable
    refine (List.map_congr_left fun entry member => ?_).trans (List.map_id _)
    exact Prod.ext rfl (readable_scalar (readable entry member)).2.1
  refine (List.map_congr_left fun entry member => ?_).trans (List.map_id _)
  refine Prod.ext rfl ?_
  rcases plainly entry member with readable | ⟨entries, same, readable⟩
  · exact (readable_scalar readable).2.2
  · change writtenValue rt entry.2 = entry.2
    rw [same, writtenValue, fixed entries readable]

theorem rereads_plainly (bare : BareKeys document.entries)
    (plainly : Plainly rt.digitLimit document.entries) :
    (writtenMapping rt document bare).Rereads rt := by
  have data : (writtenMapping rt document bare).data = document.entries := written_plainly plainly
  rintro value (⟨key, member⟩ | ⟨name, entries, key, listed, member⟩) scalar
  · rw [data] at member
    rcases plainly _ member with readable | ⟨entries, same, -⟩
    · exact readable
    · obtain rfl : value = .table entries := same
      cases scalar
  · rw [data] at listed
    rcases plainly _ listed with readable | ⟨others, same, readable⟩
    · exact readable.elim
    · cases same
      exact readable _ member

-- A string of the document is shown in its place, where the text has a string at all.
theorem written_string {table : Table} {path : Key} {text shown : String}
    (there : valueAt (.table table) path = some (.string text))
    (seen : valueAt (.table (writtenDocument rt table)) path = some (.string shown)) : shown = text := by
  match path with
  | [] => cases there
  | [key] =>
    rw [valueAt_single] at there
    rw [valueAt_single, writtenDocument, get?_mapped, there] at seen
    cases seen
    rfl
  | name :: key :: rest =>
    obtain ⟨value, found, leads, -⟩ := string_set there
    cases value with
    | table entries =>
      have shownTable : Dict.get? (writtenDocument rt table) name =
          some (.table (writtenEntries rt entries)) := by
        rw [writtenDocument, get?_mapped, found]
        rfl
      rw [valueAt_cons _ shownTable] at seen
      obtain ⟨inner, known, leads, -⟩ := string_set leads
      obtain ⟨scalar, listed, further, -⟩ := string_set seen
      rw [writtenEntries, get?_mapped, known] at listed
      obtain rfl : writtenScalar rt inner = scalar := Option.some.inj listed
      cases rest with
      | nil =>
        cases leads
        cases further
        rfl
      | cons next rest => cases inner <;> cases further
    | _ => cases leads

theorem SameValue.entries {first second : Table} (alike : SameValue (.table first) (.table second)) :
    ∀ key, Dict.get? first key = Dict.get? second key := by
  cases alike with
  | refl => exact fun _ => rfl
  | table same => exact same

-- What is read of the text is the document only where the document is plain.
theorem plainly_of_read {text : Text} {fuel : Nat} {read : Table} (bare : BareKeys document.entries)
    (some_data : document.entries ≠ []) (emitted : emission rt document.entries = some text)
    (enough : (withoutReturns text).length < fuel)
    (reads : statements rt.digitLimit fuel [] ⟨[], [], []⟩ (withoutReturns text) = some read)
    (same : SameMapping read document.entries) : Plainly rt.digitLimit document.entries := by
  let mapping := writtenMapping rt document bare
  have shown : emission rt mapping.data = some text := emission_written emitted
  have integers := emission_some_iff.mp ⟨text, shown⟩
  obtain rfl : text = mapping.text rt := by
    rcases emission_text shown with ⟨none, -⟩ | whole
    · exact absurd (List.map_eq_nil_iff.mp none) some_data
    · exact whole
  have either := readable_or_strange integers
  have never : ∀ value, mapping.Holds value → ¬ Strange value := by
    rintro value held ⟨text, rfl, odd⟩
    obtain ⟨path, text, found, there, differs, set⟩ :=
      statements_misread either held ⟨_, rfl, odd⟩ enough reads
    exact differs (written_string (same.string set) there).symm
  have readable : mapping.Rereads rt := fun value held scalar =>
    (either value held scalar).resolve_right (never value held)
  -- what is read is what the text shows, and so each value is shown as it is
  rw [statements_readable readable enough] at reads
  cases reads
  have shows : ∀ key, Dict.get? (mapping.scalars ++ mapping.tables.map asEntry) key =
      (Dict.get? document.entries key).map (writtenValue rt) := by
    intro key
    rw [get?_parts]
    exact get?_mapped _ _ _
  intro entry member
  obtain ⟨key, value⟩ := entry
  have known := (mem_iff_get? (document.keyed [] _ rfl)).mp member
  have here := same key
  rw [shows, known] at here
  have listed : (key, writtenValue rt value) ∈ mapping.data := List.mem_map_of_mem member
  have alike : SameValue (writtenValue rt value) value := by
    cases here with
    | some alike => exact alike
  cases value with
  | table entries =>
    refine .inr ⟨entries, rfl, fun inside there => ?_⟩
    have held := (mem_iff_get? (distinct_inner document.keyed member)).mp there
    have fixed : Dict.get? (writtenEntries rt entries) inside.1 = Dict.get? entries inside.1 :=
      alike.entries inside.1
    rw [writtenEntries, get?_mapped, held] at fixed
    have scalar : writtenScalar rt inside.2 = inside.2 := Option.some.inj fixed
    rw [← scalar]
    refine readable _ (.inr ⟨key, writtenEntries rt entries, inside.1, listed, ?_⟩)
      (isScalarValue_written _)
    exact List.mem_map_of_mem there
  | boolean value => exact .inl trivial
  | integer value => exact .inl (integers value (.inl ⟨key, listed⟩))
  | string text => exact .inl (readable _ (.inl ⟨key, listed⟩) rfl)
  | _ => cases alike

end Bare

-- The document with the identity

section Named

variable {rt : Runtime} {platform : Platform} {document : Document} {table : Table}
  {key username keyPath : String} {value : Value} {digitLimit : Option Nat}

theorem keyed_single (single : isTable value = false) : Keyed value := by
  intro path inner found
  cases path with
  | nil =>
    obtain rfl : value = .table inner := Option.some.inj found
    cases single
  | cons first rest =>
    rw [valueAt_beyond first rest single] at found
    cases found

theorem keyed_nil : Keyed (.table []) := by
  intro path inner found
  cases path with
  | nil =>
    cases found
    exact List.nodup_nil
  | cons first rest => cases found

theorem keyed_assign (keyed : Keyed (.table table)) (inner : Keyed value) (key : String) :
    Keyed (.table (Dict.assign table key value)) := by
  intro path entries found
  cases path with
  | nil =>
    cases found
    exact Dict.nodup_assign (keyed [] _ rfl) key value
  | cons first rest =>
    rw [valueAt_assign] at found
    split at found
    · exact inner rest entries found
    · exact keyed (first :: rest) entries found

theorem mem_assign_iff (distinct : (Dict.keys table).Nodup) (entry : String × Value) :
    entry ∈ Dict.assign table key value ↔ entry = (key, value) ∨ entry ∈ table ∧ entry.1 ≠ key := by
  obtain ⟨other, held⟩ := entry
  rw [mem_iff_get? (Dict.nodup_assign distinct key value), Dict.get?_assign, mem_iff_get? distinct]
  by_cases same : key = other
  · simp [same, eq_comm]
  · simp [same, Ne.symm same]

def sshOf (table : Table) : Table :=
  match Dict.get? table "ssh" with
  | some (.table entries) => entries
  | _ => []

theorem keyed_sshOf (keyed : Keyed (.table table)) : Keyed (.table (sshOf table)) := by
  unfold sshOf
  split
  · next entries there => exact keyed_inner keyed there
  · exact keyed_nil

def renamedDocument (document : Document) (username keyPath : String) : Document where
  entries := withIdentity document.entries (sshOf document.entries) username keyPath
  keyed := keyed_assign document.keyed
    (keyed_assign (keyed_assign (keyed_sshOf document.keyed) (keyed_single rfl) _) (keyed_single rfl) _) _

theorem mem_sshOf {entry : String × Value} (member : entry ∈ sshOf table) :
    ∃ entries, ("ssh", .table entries) ∈ table ∧ entry ∈ entries := by
  unfold sshOf at member
  split at member
  · next entries there =>
    obtain ⟨⟨name, held⟩, here, same⟩ := Option.map_eq_some_iff.mp there
    obtain rfl : held = .table entries := same
    have key : name = "ssh" := by simpa using List.find?_some here
    subst key
    exact ⟨entries, List.mem_of_find?_eq_some here, member⟩
  · cases member

theorem bare_renamed (bare : BareKeys document.entries) :
    BareKeys (renamedDocument document username keyPath).entries where
  top entry member := by
    rcases mem_assign member with rfl | old
    · exact bare_ssh
    · exact bare.top entry old
  inner name entries listed entry member := by
    rcases mem_assign listed with same | old
    · cases same
      rcases mem_assign member with rfl | first
      · exact bare_key_path
      · rcases mem_assign first with rfl | old
        · exact bare_user
        · obtain ⟨entries, there, inside⟩ := mem_sshOf old
          exact bare.inner _ entries there entry inside
    · exact bare.inner name entries old entry member

/-- Every value but the two of the identity is read as it is written, or is a table of such values. -/
structure Keepable (digitLimit : Option Nat) (table : Table) : Prop where
  others : ∀ entry ∈ table, entry.1 ≠ "ssh" → Readable digitLimit entry.2 ∨
    ∃ entries, entry.2 = .table entries ∧ ∀ inside ∈ entries, Readable digitLimit inside.2
  settings : ∀ entry ∈ sshOf table, entry.1 ≠ "user" → entry.1 ≠ "key_path" →
    Readable digitLimit entry.2

theorem plainly_renamed_iff (plainUser : ∀ c ∈ username.toList, isPlain c = true)
    (plainPath : ∀ c ∈ (posixPath keyPath).toList, isPlain c = true) :
    Plainly digitLimit (renamedDocument document username keyPath).entries ↔
      Keepable digitLimit document.entries := by
  have distinct := document.keyed [] _ rfl
  have inner := keyed_sshOf document.keyed [] _ rfl
  have listed : ∀ entry, entry ∈ (renamedDocument document username keyPath).entries ↔
      entry = ("ssh", .table (identityTable (sshOf document.entries) username keyPath)) ∨
        entry ∈ document.entries ∧ entry.1 ≠ "ssh" := fun entry => mem_assign_iff distinct entry
  have named : ∀ entry, entry ∈ identityTable (sshOf document.entries) username keyPath ↔
      entry = ("key_path", .string (posixPath keyPath)) ∨
        (entry = ("user", .string username) ∨ entry ∈ sshOf document.entries ∧ entry.1 ≠ "user") ∧
          entry.1 ≠ "key_path" := by
    intro entry
    rw [identityTable, mem_assign_iff (Dict.nodup_assign inner _ _), mem_assign_iff inner]
  constructor
  · intro plainly
    constructor
    · intro entry member apart
      exact plainly entry ((listed entry).mpr (.inr ⟨member, apart⟩))
    · intro entry member notUser notPath
      rcases plainly _ ((listed _).mpr (.inl rfl)) with impossible | ⟨entries, same, readable⟩
      · exact impossible.elim
      · cases same
        exact readable entry ((named entry).mpr (.inr ⟨.inr ⟨member, notUser⟩, notPath⟩))
  · intro keepable entry member
    rcases (listed entry).mp member with rfl | ⟨old, apart⟩
    · refine .inr ⟨_, rfl, fun inside there => ?_⟩
      rcases (named inside).mp there with rfl | ⟨rfl | ⟨old, notUser⟩, notPath⟩
      · exact plainPath
      · exact plainUser
      · exact keepable.settings inside old notUser notPath
    · exact keepable.others entry old apart

end Named

section Overlay

variable {rt : Runtime} {platform : Platform} {basePath username keyPath : String}
  {base : Table} {document : Document} {files : LocalFiles} {config : ClusterConfig}

/-- A plain account, and an absolute path that stands for itself. -/
structure PlainIdentity (platform : Platform) (username keyPath : String) : Prop where
  account : trimmed username = username ∧ username ≠ ""
  plainAccount : ∀ c ∈ username.toList, isPlain c = true
  plainPath : ∀ c ∈ keyPath.toList, isPlain c = true ∧ c ≠ '%' ∧ c ≠ '$'
  visible : trimmed (posixPath keyPath) ≠ ""
  expanded : platform.expanduser (platform.expandvars (trimmed (posixPath keyPath))) =
    trimmed (posixPath keyPath)

theorem PlainIdentity.posix (identity : PlainIdentity platform username keyPath) :
    ∀ c ∈ (posixPath keyPath).toList, isPlain c = true ∧ c ≠ '%' ∧ c ≠ '$' := by
  intro c member
  rw [posixPath, String.toList_ofList] at member
  rcases mem_pathText member with own | rfl | rfl
  · exact identity.plainPath c own
  · decide
  · decide

theorem PlainIdentity.reads (identity : PlainIdentity platform username keyPath) {table : Table}
    (there : Dict.get? table "key_path" = some (.string (posixPath keyPath))) :
    requirePath platform table "key_path" "ssh" = .ok (trimmed (posixPath keyPath)) := by
  have clean : ∀ c ∈ (trimmed (posixPath keyPath)).toList, c ≠ '%' ∧ c ≠ '$' := by
    intro c member
    rw [trimmed, String.toList_ofList] at member
    exact (identity.posix c (mem_strip member)).2
  have known : '%' ∉ (trimmed (posixPath keyPath)).toList ∧ '$' ∉ (trimmed (posixPath keyPath)).toList :=
    ⟨fun here => (clean _ here).1 rfl, fun here => (clean _ here).2 rfl⟩
  simp only [requirePath, requireStr, there, if_neg identity.visible, ok_bind, identity.expanded,
    known.1, known.2, or_self, if_false]

-- A configuration is loaded only where the overlay's settings, if there are any, are a table.
theorem sshOf_loaded
    (before : parseDocument platform (overrideUser platform.sshUser (deepMerge base document.entries)) =
      .ok config) :
    Dict.get? document.entries "ssh" = some (.table (sshOf document.entries)) ∨
      Dict.get? document.entries "ssh" = none ∧ sshOf document.entries = [] := by
  obtain ⟨table, required, -⟩ := bind_ok before
  obtain ⟨entries, there, -⟩ := table_of_overrideUser required
  rw [get?_deepMerge base (document.keyed [] _ rfl)] at there
  unfold sshOf
  cases held : Dict.get? document.entries "ssh" with
  | none => exact .inr ⟨rfl, rfl⟩
  | some value =>
    rw [held] at there
    have merged : mergeValue (Dict.get? base "ssh") value = .table entries := Option.some.inj there
    cases value with
    | table inner => exact .inl rfl
    | _ =>
      rw [mergeValue_single rfl] at merged
      cases merged

theorem reply_granted {A : Type} {x : FileChoice} (granted : x.fails = none) (value : A) :
    x.reply value = .ok value := by
  rw [FileChoice.reply, granted]

def writtenOverlay (rt : Runtime) (basePath : String) (files : LocalFiles) :
    Option Text → Outcome PyError String × LocalFiles
  | none => (.raised (tooManyDigits rt), files)
  | some text => (.returned (localOverlayPath basePath),
      files.put (localOverlayPath basePath) (Utf8.encode (overlayHeader.toList ++ text)))

-- Where every request is granted, the overlay is written, unless an integer cannot be shown.
theorem eval_writeLocalOverlay {document ssh : Table} (overlaid : Overlaid rt basePath files document)
    (settings : sshTable rt document = .ok ssh) {x y z : FileChoice} (first : x.fails = none)
    (second : y.fails = none) (third : z.fails = none) (rest : List FileChoice) :
    (writeLocalOverlay rt basePath username keyPath).eval localStep files (x :: y :: z :: rest) =
      writtenOverlay rt basePath files (emission rt (withIdentity document ssh username keyPath)) := by
  have saves : ∀ (c : FileChoice) (more : List FileChoice), c.fails = none →
      (saveIdentity rt basePath username keyPath document).eval localStep files (c :: more) =
        writtenOverlay rt basePath files
          (emission rt (withIdentity document ssh username keyPath)) := by
    intro c more granted
    rw [saveIdentity, settings]
    cases emitted : emission rt (withIdentity document ssh username keyPath) with
    | none => simp only [Prog.ofExcept, Prog.bind_eq, Prog.bind, emitted, Prog.eval, writtenOverlay]
    | some text =>
      simp only [Prog.ofExcept, Prog.bind_eq, Prog.bind, emitted, request, Prog.perform, Prog.eval,
        localStep, LocalFiles.written, reply_granted granted, granted, orVmDeployError, Prog.pure_eq,
        writtenOverlay]
  cases overlaid with
  | absent none =>
    refine Eq.trans ?_ (saves y (z :: rest) second)
    simp only [writeLocalOverlay, Prog.bind_eq, Prog.bind, request, Prog.perform, Prog.eval, localStep,
      reply_granted first, none, Option.isSome_none, orRaise]
    rfl
  | @present bytes text document there decoded read =>
    refine Eq.trans ?_ (saves z rest third)
    have alike := loads_universalNewlines read
    simp only [writeLocalOverlay, Prog.bind_eq, Prog.bind, request, Prog.perform, Prog.eval, localStep,
      reply_granted first, Option.isSome_some, there, orRaise, readOverlay, Except.mapError,
      Prog.ofExcept, if_true, reply_granted second, orVmDeployError, decoded, alike, Prog.pure_eq]
    rfl

/-- The overlay is read as the old one with the new identity in place, and the next load gives the
old configuration with the new identity. -/
structure ComesThrough (rt : Runtime) (platform : Platform) (basePath : String) (base : Table)
    (document : Document) (config : ClusterConfig) (username keyPath : String) (after : LocalFiles) :
    Prop where
  reads : ∃ bytes text read, after.content (localOverlayPath basePath) = some bytes ∧
    Utf8.strict bytes = some text ∧ loads rt.digitLimit text = some read ∧
      SameMapping read (renamedDocument document username keyPath).entries
  loads : effectiveConfig rt platform basePath (.parsed base) after = .ok { config with
    ssh := { config.ssh with
      user := if trimmed platform.sshUser = "" then username else config.ssh.user
      keyPath := trimmed (posixPath keyPath) } }

theorem content_put (files : LocalFiles) (path : String) (content : Bytes) :
    (files.put path content).content path = some content :=
  Function.update_self _ _ _

theorem plainly_of_survival {text : Text} (bare : BareKeys document.entries)
    (emitted : emission rt (renamedDocument document username keyPath).entries = some text)
    (survives : ComesThrough rt platform basePath base document config username keyPath
      (files.put (localOverlayPath basePath) (Utf8.encode (overlayHeader.toList ++ text)))) :
    Plainly rt.digitLimit (renamedDocument document username keyPath).entries := by
  obtain ⟨bytes, shown, read, there, decoded, reads, same⟩ := survives.reads
  rw [content_put] at there
  obtain rfl := Option.some.inj there
  rw [Utf8.strict_encode] at decoded
  obtain rfl := Option.some.inj decoded
  rw [loads_overlay] at reads
  exact plainly_of_read (bare_renamed bare) (named_nonempty _ _ _ _) emitted (by omega) reads same

theorem survival_of_plainly (identity : PlainIdentity platform username keyPath)
    (bare : BareKeys document.entries)
    (before : parseDocument platform (overrideUser platform.sshUser (deepMerge base document.entries)) =
      .ok config)
    (plainly : Plainly rt.digitLimit (renamedDocument document username keyPath).entries)
    (files : LocalFiles) :
    ∃ text, emission rt (renamedDocument document username keyPath).entries = some text ∧
      ComesThrough rt platform basePath base document config username keyPath
        (files.put (localOverlayPath basePath) (Utf8.encode (overlayHeader.toList ++ text))) := by
  have data : (writtenMapping rt _ (bare_renamed bare)).data =
      (renamedDocument document username keyPath).entries := written_plainly plainly
  have rereads := rereads_plainly (bare_renamed bare) plainly
  have emitted := emission_rereads rereads
  obtain ⟨read, loads, distinct, same⟩ := loads_written rereads
    (fun none => named_nonempty _ _ _ _ (data.symm.trans none))
  rw [data] at emitted loads
  simp only [data] at same
  rw [String.toList_append] at loads
  have decoded := Utf8.strict_encode (overlayHeader.toList ++
    (emitToml rt (renamedDocument document username keyPath).entries).toList)
  refine ⟨_, emitted, ⟨_, _, read, content_put _ _ _, decoded, loads, ?_⟩, ?_⟩
  · intro key
    rw [same key]
    cases Dict.get? (renamedDocument document username keyPath).entries key with
    | none => exact .none
    | some value => exact .some (.refl value)
  · rw [effectiveConfig, content_put, Option.map_some, sourceOf_parsed decoded loads, load_merged]
    exact parseDocument_renamed identity.account (fun _ here => identity.reads here)
      (document.keyed [] _ rfl) (keyed_sshOf document.keyed [] _ rfl) (sshOf_loaded before) before
      distinct same

/-- For an overlay under bare keys, exactly the values that are read as they are written survive. -/
theorem overlay_survives_iff (identity : PlainIdentity platform username keyPath)
    (bare : BareKeys document.entries) (overlaid : Overlaid rt basePath files document.entries)
    (loaded : effectiveConfig rt platform basePath (.parsed base) files = .ok config)
    {script : List FileChoice} (served : ∀ x ∈ script, x.fails = none) (whole : 3 ≤ script.length) :
    (∃ after, (writeLocalOverlay rt basePath username keyPath).eval localStep files script =
        (.returned (localOverlayPath basePath), after) ∧
      ComesThrough rt platform basePath base document config username keyPath after) ↔
      Keepable rt.digitLimit document.entries := by
  have before := parsed_overlaid overlaid loaded
  have settings : sshTable rt document.entries = .ok (sshOf document.entries) := by
    rcases sshOf_loaded before with here | ⟨absent, none⟩
    · rw [sshTable, here]
    · rw [sshTable, absent, none]
  obtain ⟨x, y, z, rest, rfl⟩ : ∃ x y z rest, script = x :: y :: z :: rest := by
    rcases script with _ | ⟨x, _ | ⟨y, _ | ⟨z, rest⟩⟩⟩
    · cases whole
    · cases Nat.le_of_succ_le_succ whole
    · cases Nat.le_of_succ_le_succ (Nat.le_of_succ_le_succ whole)
    · exact ⟨x, y, z, rest, rfl⟩
  have runs : (writeLocalOverlay rt basePath username keyPath).eval localStep files (x :: y :: z :: rest) =
      writtenOverlay rt basePath files (emission rt (renamedDocument document username keyPath).entries) :=
    eval_writeLocalOverlay overlaid settings (served x (by simp)) (served y (by simp))
      (served z (by simp)) rest
  rw [runs, ← plainly_renamed_iff identity.plainAccount fun c member => (identity.posix c member).1]
  constructor
  · rintro ⟨after, returned, survives⟩
    cases emitted : emission rt (renamedDocument document username keyPath).entries with
    | none =>
      rw [emitted] at returned
      cases returned
    | some text =>
      rw [emitted] at returned
      obtain rfl := congrArg Prod.snd returned
      exact plainly_of_survival bare emitted survives
  · intro plainly
    obtain ⟨text, emitted, survives⟩ := survival_of_plainly identity bare before plainly files
    rw [emitted]
    exact ⟨_, rfl, survives⟩

def localDocument : Document where
  entries := localMapping.data
  keyed := by
    have ssh : Keyed (.table [("user", .string "deploy")]) :=
      keyed_assign keyed_nil (keyed_single rfl) "user"
    have vbox : Keyed (.table [("memory_mb", .integer 2048)]) :=
      keyed_assign keyed_nil (keyed_single rfl) "memory_mb"
    exact keyed_assign (keyed_assign keyed_nil ssh "ssh") vbox "virtualbox"

theorem plain_operator : PlainIdentity examplePlatform "operator" "/keys/operator_key" where
  account := by decide
  plainAccount := List.all_eq_true.mp rfl
  plainPath := by
    have clean : "/keys/operator_key".toList.all (fun c => isPlain c && c != '%' && c != '$') = true := by
      rfl
    intro c member
    simpa [and_assoc] using List.all_eq_true.mp clean c member
  visible := by decide
  expanded := rfl

theorem local_bare : BareKeys localDocument.entries where
  top := localMapping.bare
  inner name entries listed entry member := by
    rcases localMapping.shallow _ listed with impossible | ⟨others, same, scalars⟩
    · cases impossible
    · cases same
      exact scalars.bare entry member

/-- The memory for the machines is there after a setup. -/
theorem local_overlay_survives : ∃ after,
    (writeLocalOverlay (limitedRuntime 4300) "config/cluster.toml" "operator"
      "/keys/operator_key").eval localStep localFiles (List.replicate 3 (Inventory.meeting none)) =
        (.returned (localOverlayPath "config/cluster.toml"), after) ∧
      ComesThrough (limitedRuntime 4300) examplePlatform "config/cluster.toml"
        stockDocument localDocument localCluster "operator" "/keys/operator_key" after := by
  have keepable : Keepable (limitedRuntime 4300).digitLimit localDocument.entries := by
    have readable : Readable (limitedRuntime 4300).digitLimit (.integer 2048) :=
      show converts (some 4300) 2048 = true by decide +kernel
    constructor
    · rintro entry (_ | ⟨_, _ | ⟨_, none⟩⟩) apart
      · exact absurd rfl apart
      · exact .inr ⟨_, rfl, List.forall_mem_singleton.mpr readable⟩
      · cases none
    · intro entry member notUser
      exact absurd (congrArg Prod.fst (List.mem_singleton.mp member)) notUser
  have served : ∀ x ∈ List.replicate 3 (Inventory.meeting none), x.fails = none := by
    intro x member
    rw [List.eq_of_mem_replicate member]
    rfl
  have whole : 3 ≤ (List.replicate 3 (Inventory.meeting none)).length := Nat.le_refl 3
  exact (overlay_survives_iff plain_operator local_bare local_overlaid local_loads served whole).mpr
    keepable

def windowsText : Text :=
  "[virtualbox]\nvboxmanage = 'C:\\Program Files\\VBoxManage.exe'\n".toList

/-- An overlay with a path of Windows, as a literal string. -/
def windowsFiles : LocalFiles :=
  ⟨fun path => if path = localOverlayPath "config/cluster.toml" then some (Utf8.encode windowsText)
    else none, []⟩

def windowsCluster : ClusterConfig :=
  let cluster := exampleCluster "apjump" exampleNodes
  { cluster with
    virtualbox := { cluster.virtualbox with vboxmanage := "C:\\Program Files\\VBoxManage.exe" } }

def windowsSetup : Outcome PyError String × LocalFiles :=
  (writeLocalOverlay (limitedRuntime 4300) "config/cluster.toml" "operator"
    "/keys/operator_key").eval localStep windowsFiles (List.replicate 3 (Inventory.meeting none))

def windowsOverlay : Table :=
  [("virtualbox", .table [("vboxmanage", .string "C:\\Program Files\\VBoxManage.exe")])]

def windowsWritten : Text :=
  "[virtualbox]\nvboxmanage = \"C:\\Program Files\\VBoxManage.exe\"\n\n".toList ++
    "[ssh]\nuser = \"operator\"\nkey_path = \"/keys/operator_key\"\n".toList

theorem windows_read :
    loads (limitedRuntime 4300).digitLimit windowsText = some windowsOverlay := by
  have literal : windowsText = _ := toList_literal rfl
  rw [literal]
  rfl

theorem windows_there : windowsFiles.content (localOverlayPath "config/cluster.toml") =
    some (Utf8.encode windowsText) := by
  simp only [windowsFiles, if_true]

theorem windows_written : emission (limitedRuntime 4300)
    (withIdentity windowsOverlay [] "operator" "/keys/operator_key") = some windowsWritten := by
  unfold windowsWritten
  rw [toList_literal rfl, toList_literal rfl]
  simp only [emission, emitToml, String.toList_append, String.toList_ofList, String.toList_intercalate]
  decide

-- A file that TOML does not read is one that no configuration is loaded from.
theorem unread_refuses {rt : Runtime} {platform : Platform} {basePath : String} {base : Table}
    {files : LocalFiles} {bytes : Bytes} {text : Text} {config : ClusterConfig}
    (there : files.content (localOverlayPath basePath) = some bytes)
    (decoded : Utf8.strict bytes = some text) (unread : loads rt.digitLimit text = none) :
    effectiveConfig rt platform basePath (.parsed base) files ≠ .ok config := by
  intro loaded
  rw [effectiveConfig, there, Option.map_some, sourceOf] at loaded
  simp only [decoded, unread] at loaded
  cases fault : rt.tomlFault text with
  | decodeError exc =>
    rw [fault] at loaded
    cases loaded
  | valueError exc =>
    rw [fault] at loaded
    cases loaded

theorem windows_unread :
    loads (limitedRuntime 4300).digitLimit (overlayHeader.toList ++ windowsWritten) = none := by
  have first : firstComment = _ := toList_literal rfl
  have second : secondComment = _ := toList_literal rfl
  rw [loads_overlay, first, second]
  unfold windowsWritten
  rw [toList_literal rfl, toList_literal rfl]
  rfl

theorem windowsSetup_eq : windowsSetup = (.returned (localOverlayPath "config/cluster.toml"),
    windowsFiles.put (localOverlayPath "config/cluster.toml")
      (Utf8.encode (overlayHeader.toList ++ windowsWritten))) := by
  have overlaid : Overlaid (limitedRuntime 4300) "config/cluster.toml" windowsFiles windowsOverlay :=
    .present windows_there (Utf8.strict_encode windowsText) windows_read
  have settings : sshTable (limitedRuntime 4300) windowsOverlay = .ok [] := rfl
  have runs := @eval_writeLocalOverlay (limitedRuntime 4300) "config/cluster.toml" "operator"
    "/keys/operator_key" windowsFiles windowsOverlay [] overlaid settings (Inventory.meeting none)
    (Inventory.meeting none) (Inventory.meeting none) rfl rfl rfl []
  rw [windows_written] at runs
  exact runs

/-- The backslashes of the path are no escapes that a basic string knows. -/
theorem windows_path_lost : PlainIdentity examplePlatform "operator" "/keys/operator_key" ∧
    effectiveConfig (limitedRuntime 4300) examplePlatform "config/cluster.toml" (.parsed stockDocument)
      windowsFiles = .ok windowsCluster ∧
    windowsSetup.1 = .returned (localOverlayPath "config/cluster.toml") ∧
    ∀ config, effectiveConfig (limitedRuntime 4300) examplePlatform "config/cluster.toml" (.parsed stockDocument)
      windowsSetup.2 ≠ .ok config := by
  refine ⟨plain_operator, ?_, ?_, fun config loaded => ?_⟩
  · rw [effectiveConfig, windows_there, Option.map_some,
      sourceOf_parsed (Utf8.strict_encode windowsText) windows_read]
    decide +kernel
  · rw [windowsSetup_eq]
  · rw [windowsSetup_eq] at loaded
    exact unread_refuses (content_put _ _ _) (Utf8.strict_encode _) windows_unread loaded

end Overlay

end VmDeploy.Setup
