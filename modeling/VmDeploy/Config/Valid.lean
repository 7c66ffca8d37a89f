import VmDeploy.Config.Load

/-! Which documents are accepted, and as which configuration. -/

set_option autoImplicit false

namespace VmDeploy.Config

open Python
open Toml (Value Table)

section Readers

variable {A B : Type}

/-- A reader gives its value exactly on valid input, and refuses anything else with a
`ConfigurationError`. -/
structure Reads (reader : Except PyError A) (valid : Prop) (value : A) : Prop where
  accepts : valid → reader = .ok value
  refuses : ¬ valid → ∃ message, reader = .error (.configurationError message)

theorem ok_bind (value : A) (next : A → Except PyError B) :
    (.ok value : Except PyError A) >>= next = next value := rfl

theorem reads_ok (value : A) : Reads (.ok value) True value :=
  ⟨fun _ => rfl, fun invalid => absurd trivial invalid⟩

theorem Reads.bind {reader : Except PyError A} {next : A → Except PyError B} {valid other : Prop}
    {value : A} {result : B} (first : Reads reader valid value)
    (second : valid → Reads (next value) other result) :
    Reads (reader >>= next) (valid ∧ other) result := by
  constructor
  · rintro ⟨here, later⟩
    rw [first.accepts here]
    exact (second here).accepts later
  · intro invalid
    by_cases here : valid
    · rw [first.accepts here]
      exact (second here).refuses fun later => invalid ⟨here, later⟩
    · obtain ⟨message, refused⟩ := first.refuses here
      exact ⟨message, by rw [refused]; rfl⟩

theorem Reads.congr {reader : Except PyError A} {valid other : Prop} {value : A}
    (reads : Reads reader valid value) (same : other ↔ valid) : Reads reader other value :=
  ⟨fun here => reads.accepts (same.mp here), fun invalid => reads.refuses (mt same.mpr invalid)⟩

theorem Reads.ok_iff {reader : Except PyError A} {valid : Prop} {value result : A}
    (reads : Reads reader valid value) : reader = .ok result ↔ valid ∧ result = value := by
  constructor
  · intro returned
    by_cases here : valid
    · rw [reads.accepts here] at returned
      exact ⟨here, (Except.ok.inj returned).symm⟩
    · obtain ⟨message, refused⟩ := reads.refuses here
      rw [refused] at returned
      cases returned
  · rintro ⟨here, rfl⟩
    exact reads.accepts here

end Readers

def tableAt (data : Table) (name : String) : Table :=
  match Dict.get? data name with
  | some (.table entries) => entries
  | _ => []

def textAt (table : Table) (key : String) : String :=
  optionalStr table key

def integerAt (table : Table) (key : String) : Nat :=
  match Dict.get? table key with
  | some (.integer value) => value.toNat
  | _ => 0

def pathAt (platform : Platform) (table : Table) (key : String) : String :=
  platform.expanduser (platform.expandvars (textAt table key))

def HasTable (data : Table) (name : String) : Prop :=
  ∃ entries, Dict.get? data name = some (.table entries)

def HasText (table : Table) (key : String) : Prop :=
  ∃ text, Dict.get? table key = some (.string text) ∧ trimmed text ≠ ""

def HasInteger (table : Table) (key : String) (minimum : Nat) : Prop :=
  ∃ value : Int, Dict.get? table key = some (.integer value) ∧ minimum ≤ value

def HasPort (table : Table) (key : String) : Prop :=
  ∃ value : Int, Dict.get? table key = some (.integer value) ∧ 1 ≤ value ∧ value ≤ 65535

def HasPath (platform : Platform) (table : Table) (key : String) : Prop :=
  HasText table key ∧ '%' ∉ (pathAt platform table key).toList ∧
    '$' ∉ (pathAt platform table key).toList

section Fields

variable (table : Table) (key context : String)

theorem requiredTable_reads (data : Table) (name : String) :
    Reads (requiredTable data name) (HasTable data name) (tableAt data name) := by
  unfold requiredTable tableAt HasTable
  constructor
  · rintro ⟨entries, found⟩
    rw [found]
  · intro absent
    split
    · next entries found => exact absurd ⟨entries, found⟩ absent
    · exact ⟨_, rfl⟩

theorem requireStr_reads :
    Reads (requireStr table key context) (HasText table key) (textAt table key) := by
  unfold requireStr textAt optionalStr HasText
  constructor
  · rintro ⟨text, found, visible⟩
    simp only [found, if_neg visible]
  · intro absent
    split
    · next text found =>
      by_cases blank : trimmed text = ""
      · exact ⟨_, if_pos blank⟩
      · exact absurd ⟨text, found, blank⟩ absent
    · exact ⟨_, rfl⟩

theorem requireInt_reads (minimum : Nat) :
    Reads (requireInt table key context minimum) (HasInteger table key minimum)
      (integerAt table key) := by
  unfold requireInt integerAt HasInteger
  constructor
  · rintro ⟨value, found, least⟩
    simp only [found, if_neg (Int.not_lt.mpr least)]
  · intro absent
    split
    · next value found =>
      by_cases small : value < minimum
      · exact ⟨_, if_pos small⟩
      · exact absurd ⟨value, found, Int.not_lt.mp small⟩ absent
    · exact ⟨_, rfl⟩

theorem hasPort_iff :
    HasPort table key ↔ HasInteger table key minPort ∧ ¬ maxPort < integerAt table key := by
  unfold HasPort HasInteger integerAt minPort maxPort
  constructor
  · rintro ⟨value, found, least, most⟩
    refine ⟨⟨value, found, by omega⟩, ?_⟩
    simp only [found]
    omega
  · rintro ⟨⟨value, found, least⟩, most⟩
    simp only [found] at most
    exact ⟨value, found, by omega, by omega⟩

theorem requirePort_reads :
    Reads (requirePort table key context) (HasPort table key) (integerAt table key) := by
  refine Reads.congr ((requireInt_reads table key context minPort).bind (fun _ => ?_))
    (hasPort_iff table key)
  constructor
  · intro small
    exact if_neg small
  · intro large
    exact ⟨_, if_pos (not_not.mp large)⟩

theorem requirePath_reads (platform : Platform) :
    Reads (requirePath platform table key context) (HasPath platform table key)
      (pathAt platform table key) := by
  refine (requireStr_reads table key context).bind (fun _ => ?_)
  constructor
  · rintro ⟨percent, dollar⟩
    exact if_neg (not_or.mpr ⟨percent, dollar⟩)
  · intro left
    refine ⟨_, if_pos (Decidable.not_and_iff_not_or_not.mp left |>.imp not_not.mp not_not.mp)⟩

end Fields

def IsBackend : Value → Prop
  | .table entry => HasText entry "vm_name" ∧ HasText entry "hostname" ∧ HasPort entry "http_port"
  | _ => False

def backendAt : Value → HostConfig
  | .table entry =>
      ⟨textAt entry "vm_name", textAt entry "hostname", .backend, integerAt entry "http_port"⟩
  | _ => ⟨"", "", .backend, 0⟩

def backendsAt (document : Table) : List Value :=
  match Dict.get? document "backend" with
  | some (.array entries) => entries
  | _ => []

def HasBackends (document : Table) : Prop :=
  ∃ entries, Dict.get? document "backend" = some (.array entries) ∧ 2 ≤ entries.length ∧
    ∀ entry ∈ entries, IsBackend entry

def backendNames (document : Table) : List String :=
  (backendsAt document).map fun entry => (backendAt entry).vmName

theorem parseBackendEntries_reads (index : Nat) (entries : List Value) :
    Reads (parseBackendEntries index entries) (∀ entry ∈ entries, IsBackend entry)
      (entries.map backendAt) := by
  induction entries generalizing index with
  | nil => exact (reads_ok _).congr (by simp)
  | cons entry rest ih =>
    have malformed : ∀ {entry}, ¬ IsBackend entry → parseBackendEntries index (entry :: rest) =
        .error (.configurationError s!"[[backend]] entry {index} is not a table") →
        Reads (parseBackendEntries index (entry :: rest))
          (∀ one ∈ entry :: rest, IsBackend one) ((entry :: rest).map backendAt) :=
      fun unusable refused => ⟨fun all => absurd (all _ List.mem_cons_self) unusable,
        fun _ => ⟨_, refused⟩⟩
    cases entry with
    | table entry =>
      refine Reads.congr ((requireStr_reads entry "vm_name" _).bind fun _ =>
        (requireStr_reads entry "hostname" _).bind fun _ =>
        (requirePort_reads entry "http_port" _).bind fun _ =>
        (ih (index + 1)).bind fun _ => reads_ok _) ?_
      rw [List.forall_mem_cons, IsBackend]
      tauto
    | string text => exact malformed id rfl
    | integer value => exact malformed id rfl
    | float text => exact malformed id rfl
    | boolean value => exact malformed id rfl
    | datetime text => exact malformed id rfl
    | array elements => exact malformed id rfl

theorem parseBackends_reads (document : Table) :
    Reads (parseBackends (Dict.get? document "backend"))
      (HasBackends document ∧ (backendNames document).Nodup)
      ((backendsAt document).map backendAt) := by
  unfold HasBackends backendNames backendsAt parseBackends
  split
  · next entries found =>
    simp only [found, Option.some.injEq, Value.array.injEq, exists_eq_left']
    by_cases few : entries.length < 2
    · rw [if_pos few]
      constructor
      · rintro ⟨⟨enough, -⟩, -⟩
        omega
      · exact fun _ => ⟨_, rfl⟩
    · rw [if_neg few]
      have enough : 2 ≤ entries.length := Nat.le_of_not_lt few
      have unique : Reads (uniqueBackends (entries.map backendAt))
          (entries.map fun entry => (backendAt entry).vmName).Nodup (entries.map backendAt) := by
        have names : (entries.map backendAt).map HostConfig.vmName =
            entries.map fun entry => (backendAt entry).vmName := List.map_map
        unfold uniqueBackends
        rw [names]
        exact ⟨fun distinct => if_pos distinct, fun repeated => ⟨_, if_neg repeated⟩⟩
      refine Reads.congr ((parseBackendEntries_reads 0 entries).bind fun _ => unique) ?_
      tauto
  · next other =>
    constructor
    · rintro ⟨⟨entries, found, -⟩, -⟩
      exact absurd found (other entries)
    · exact fun _ => ⟨_, rfl⟩

def requiredTables : List String :=
  ["ssh", "virtualbox", "jump", "inventory", "website", "build"]

def requiredTexts : List (String × String) :=
  [("ssh", "user"), ("virtualbox", "template_vm"), ("jump", "vm_name"), ("jump", "hostname"),
    ("inventory", "remote_dir"), ("inventory", "datastore_name"), ("website", "source_url"),
    ("website", "archive_url"), ("website", "document_root"), ("build", "go_version"),
    ("build", "go_sha256")]

def requiredIntegers : List (String × String × Nat) :=
  [("ssh", "connect_timeout_seconds", 1), ("ssh", "command_timeout_seconds", 1),
    ("virtualbox", "memory_mb", 512), ("virtualbox", "cpus", 1),
    ("virtualbox", "boot_timeout_seconds", 30)]

def requiredPorts : List (String × String) :=
  [("jump", "http_port"), ("inventory", "service_port")]

def requiredPaths : List (String × String) :=
  [("ssh", "key_path"), ("virtualbox", "vboxmanage"), ("virtualbox", "template_ova"),
    ("inventory", "key_file"), ("inventory", "manifest_file")]

/-- The trimmed names of the machines, the jump station first. -/
def machineNames (document : Table) : List String :=
  textAt (tableAt document "jump") "vm_name" :: backendNames document

structure Acceptable (platform : Platform) (document : Table) : Prop where
  tables : ∀ name ∈ requiredTables, HasTable document name
  texts : ∀ field ∈ requiredTexts, HasText (tableAt document field.1) field.2
  integers : ∀ field ∈ requiredIntegers,
    HasInteger (tableAt document field.1) field.2.1 field.2.2
  ports : ∀ field ∈ requiredPorts, HasPort (tableAt document field.1) field.2
  paths : ∀ field ∈ requiredPaths, HasPath platform (tableAt document field.1) field.2
  backends : HasBackends document
  distinct : (machineNames document).Nodup
  template : textAt (tableAt document "virtualbox") "template_vm" ∉ machineNames document
  service : integerAt (tableAt document "inventory") "service_port" ≠
    integerAt (tableAt document "jump") "http_port"

section Sections

variable (platform : Platform) (table : Table)

def sshAt : SSHConfig where
  user := textAt table "user"
  keyPath := pathAt platform table "key_path"
  connectTimeoutSeconds := integerAt table "connect_timeout_seconds"
  commandTimeoutSeconds := integerAt table "command_timeout_seconds"

def virtualBoxAt : VirtualBoxConfig where
  vboxmanage := pathAt platform table "vboxmanage"
  templateVm := textAt table "template_vm"
  templateOva := pathAt platform table "template_ova"
  templateImageRef := textAt table "template_image_ref"
  memoryMb := integerAt table "memory_mb"
  cpus := integerAt table "cpus"
  bootTimeoutSeconds := integerAt table "boot_timeout_seconds"

def jumpAt : HostConfig where
  vmName := textAt table "vm_name"
  hostname := textAt table "hostname"
  role := .jump
  httpPort := integerAt table "http_port"

def inventoryAt : InventoryConfig where
  servicePort := integerAt table "service_port"
  remoteDir := textAt table "remote_dir"
  keyFile := pathAt platform table "key_file"
  datastoreName := textAt table "datastore_name"
  manifestFile := pathAt platform table "manifest_file"

def websiteAt : WebsiteConfig where
  sourceUrl := textAt table "source_url"
  archiveUrl := textAt table "archive_url"
  documentRoot := textAt table "document_root"

def buildAt : BuildConfig where
  goVersion := textAt table "go_version"
  goSha256 := textAt table "go_sha256"

theorem sshConfig_reads : Reads (sshConfig platform table)
    (HasText table "user" ∧ HasPath platform table "key_path" ∧
      HasInteger table "connect_timeout_seconds" 1 ∧
      HasInteger table "command_timeout_seconds" 1 ∧ True) (sshAt platform table) := by
  refine (requireStr_reads _ _ _).bind fun _ => ?_
  refine (requirePath_reads _ _ _ _).bind fun _ => ?_
  refine (requireInt_reads _ _ _ _).bind fun _ => ?_
  exact (requireInt_reads _ _ _ _).bind fun _ => reads_ok _

theorem virtualBoxConfig_reads : Reads (virtualBoxConfig platform table)
    (HasPath platform table "vboxmanage" ∧ HasText table "template_vm" ∧
      HasPath platform table "template_ova" ∧ HasInteger table "memory_mb" 512 ∧
      HasInteger table "cpus" 1 ∧ HasInteger table "boot_timeout_seconds" 30 ∧ True)
    (virtualBoxAt platform table) := by
  refine (requirePath_reads _ _ _ _).bind fun _ => ?_
  refine (requireStr_reads _ _ _).bind fun _ => ?_
  refine (requirePath_reads _ _ _ _).bind fun _ => ?_
  refine (requireInt_reads _ _ _ _).bind fun _ => ?_
  refine (requireInt_reads _ _ _ _).bind fun _ => ?_
  exact (requireInt_reads _ _ _ _).bind fun _ => reads_ok _

theorem jumpConfig_reads : Reads (jumpConfig table)
    (HasText table "vm_name" ∧ HasText table "hostname" ∧ HasPort table "http_port" ∧ True)
    (jumpAt table) := by
  refine (requireStr_reads _ _ _).bind fun _ => ?_
  refine (requireStr_reads _ _ _).bind fun _ => ?_
  exact (requirePort_reads _ _ _).bind fun _ => reads_ok _

theorem inventoryConfig_reads : Reads (inventoryConfig platform table)
    (HasPort table "service_port" ∧ HasText table "remote_dir" ∧
      HasPath platform table "key_file" ∧ HasText table "datastore_name" ∧
      HasPath platform table "manifest_file" ∧ True) (inventoryAt platform table) := by
  refine (requirePort_reads _ _ _).bind fun _ => ?_
  refine (requireStr_reads _ _ _).bind fun _ => ?_
  refine (requirePath_reads _ _ _ _).bind fun _ => ?_
  refine (requireStr_reads _ _ _).bind fun _ => ?_
  exact (requirePath_reads _ _ _ _).bind fun _ => reads_ok _

theorem websiteConfig_reads : Reads (websiteConfig table)
    (HasText table "source_url" ∧ HasText table "archive_url" ∧ HasText table "document_root" ∧
      True) (websiteAt table) := by
  refine (requireStr_reads _ _ _).bind fun _ => ?_
  refine (requireStr_reads _ _ _).bind fun _ => ?_
  exact (requireStr_reads _ _ _).bind fun _ => reads_ok _

theorem buildConfig_reads : Reads (buildConfig table)
    (HasText table "go_version" ∧ HasText table "go_sha256" ∧ True) (buildAt table) := by
  refine (requireStr_reads _ _ _).bind fun _ => ?_
  exact (requireStr_reads _ _ _).bind fun _ => reads_ok _

end Sections

/-- The trimmed or expanded value of each field, at its place. -/
def described (platform : Platform) (document : Table) : ClusterConfig where
  ssh := sshAt platform (tableAt document "ssh")
  virtualbox := virtualBoxAt platform (tableAt document "virtualbox")
  jump := jumpAt (tableAt document "jump")
  backends := (backendsAt document).map backendAt
  inventory := inventoryAt platform (tableAt document "inventory")
  website := websiteAt (tableAt document "website")
  build := buildAt (tableAt document "build")

theorem validateCrossReferences_reads (config : ClusterConfig) :
    Reads (validateCrossReferences config)
      ((config.allHosts.map HostConfig.vmName).Nodup ∧
        config.virtualbox.templateVm ∉ config.allHosts.map HostConfig.vmName ∧
        config.inventory.servicePort ≠ config.jump.httpPort) () := by
  simp only [validateCrossReferences]
  by_cases distinct : (config.allHosts.map HostConfig.vmName).Nodup
  · rw [if_neg (not_not.mpr distinct)]
    by_cases collides : config.virtualbox.templateVm ∈ config.allHosts.map HostConfig.vmName
    · rw [if_pos collides]
      exact ⟨fun valid => absurd collides valid.2.1, fun _ => ⟨_, rfl⟩⟩
    · rw [if_neg collides]
      by_cases taken : config.inventory.servicePort = config.jump.httpPort
      · rw [if_pos taken]
        exact ⟨fun valid => absurd taken valid.2.2, fun _ => ⟨_, rfl⟩⟩
      · rw [if_neg taken]
        exact ⟨fun _ => rfl, fun invalid => absurd ⟨distinct, collides, taken⟩ invalid⟩
  · rw [if_pos distinct]
    exact ⟨fun valid => absurd valid.1 distinct, fun _ => ⟨_, rfl⟩⟩

theorem parseDocument_reads (platform : Platform) (document : Table) :
    Reads (parseDocument platform document) (Acceptable platform document)
      (described platform document) := by
  apply Reads.congr
  · apply (requiredTable_reads document "ssh").bind
    intro _
    apply (requiredTable_reads document "virtualbox").bind
    intro _
    apply (requiredTable_reads document "jump").bind
    intro _
    apply (requiredTable_reads document "inventory").bind
    intro _
    apply (requiredTable_reads document "website").bind
    intro _
    apply (requiredTable_reads document "build").bind
    intro _
    apply (sshConfig_reads platform _).bind
    intro _
    apply (virtualBoxConfig_reads platform _).bind
    intro _
    apply (jumpConfig_reads _).bind
    intro _
    apply (parseBackends_reads document).bind
    intro _
    apply (inventoryConfig_reads platform _).bind
    intro _
    apply (websiteConfig_reads _).bind
    intro _
    apply (buildConfig_reads _).bind
    intro _
    apply (validateCrossReferences_reads (described platform document)).bind
    intro _
    exact reads_ok _
  · -- the same conditions, by kind of field instead of by table
    have names : ((described platform document).allHosts.map HostConfig.vmName) =
        machineNames document := by
      rw [machineNames, backendNames]
      simp [ClusterConfig.allHosts, described, jumpAt]
    have template : (described platform document).virtualbox.templateVm =
        textAt (tableAt document "virtualbox") "template_vm" := rfl
    have service : (described platform document).inventory.servicePort =
        integerAt (tableAt document "inventory") "service_port" := rfl
    have http : (described platform document).jump.httpPort =
        integerAt (tableAt document "jump") "http_port" := rfl
    rw [names, template, service, http]
    constructor
    · rintro ⟨tables, texts, integers, ports, paths, backends, distinct, apart, service⟩
      simp only [requiredTables, requiredTexts, requiredIntegers, requiredPorts, requiredPaths,
        List.forall_mem_cons, List.not_mem_nil, false_implies, implies_true, and_true] at *
      have different : (backendNames document).Nodup := (List.nodup_cons.mp distinct).2
      tauto
    · intro parts
      constructor
      case backends | distinct | template | service => tauto
      all_goals
        simp only [requiredTables, requiredTexts, requiredIntegers, requiredPorts, requiredPaths,
          List.forall_mem_cons, List.not_mem_nil, false_implies, implies_true, and_true]
        tauto

-- The entries of a merged table: those of the overlay, merged with what was there,
-- and the others of the base.
theorem get?_deepMerge (base : Table) {overlay : Table} (unique : (Dict.keys overlay).Nodup)
    (key : String) :
    Dict.get? (deepMerge base overlay) key =
      ((Dict.get? overlay key).map (mergeValue (Dict.get? base key))).or
        (Dict.get? base key) := by
  induction overlay generalizing base with
  | nil => simp [deepMerge]
  | cons entry rest ih =>
    obtain ⟨name, value⟩ := entry
    obtain ⟨fresh, later⟩ := List.nodup_cons.mp unique
    rw [deepMerge, ih _ later, Dict.get?_cons, Dict.get?_assign]
    by_cases same : name = key
    · subst same
      have absent : Dict.get? rest name = none := by
        rw [← Option.not_isSome_iff_eq_none, Dict.isSome_get?]
        exact fresh
      simp [absent]
    · simp [same]

def effectiveDocument (platform : Platform) (base : Table) (overlay : Option Table) : Table :=
  overrideUser platform.sshUser (overlay.elim base (deepMerge base))

end VmDeploy.Config
