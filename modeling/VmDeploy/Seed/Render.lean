import VmDeploy.Encoding.Yaml
import VmDeploy.Exceptions
import VmDeploy.Python.Text

/-! `seed.py`: the documents that give a guest its identity. -/

set_option autoImplicit false

namespace VmDeploy.Seed

open Python

/-- `[a-zA-Z0-9]([a-zA-Z0-9-]{0,61}[a-zA-Z0-9])?` -/
def isHostLabel (text : Text) : Bool :=
  text.all (fun c => c.isAlphanum || c = '-') && text.length ≤ 63 &&
    text.head?.any Char.isAlphanum && text.getLast?.any Char.isAlphanum

/-- `[a-z_][a-z0-9_-]{0,31}` -/
def isAccountName (text : Text) : Bool :=
  text.all (fun c => c.isLower || c.isDigit || c = '_' || c = '-') && text.length ≤ 32 &&
    text.head?.any fun c => c.isLower || c = '_'

def publicKeyTypes : List String :=
  ["ssh-ed25519", "ssh-rsa", "ecdsa-sha2-nistp256", "ecdsa-sha2-nistp384", "ecdsa-sha2-nistp521",
    "sk-ssh-ed25519@openssh.com", "sk-ecdsa-sha2-nistp256@openssh.com"]

def yamlQuote (value : Text) : Text :=
  '\'' :: value.flatMap (fun c => if c = '\'' then ['\'', '\''] else [c]) ++ ['\'']

def invalidHostname (hostname : Text) : PyError :=
  .vmDeployError (s!"invalid hostname {String.ofList (reprText hostname)}: must be 1-63 characters " ++
    "of letters, digits, or inner hyphens, and must not start or end with a hyphen")

def validateHostname (hostname : Text) : Except PyError Unit :=
  if matchesToEnd isHostLabel hostname then .ok () else .error (invalidHostname hostname)

def invalidUsername (username : Text) : PyError :=
  .vmDeployError (s!"invalid username {String.ofList (reprText username)}: must start with a " ++
    "lowercase letter or underscore and contain only lowercase letters, digits, underscores, or " ++
    "hyphens (32 max)")

def validateUsername (username : Text) : Except PyError Unit :=
  if matchesToEnd isAccountName username then .ok () else .error (invalidUsername username)

def validatePublicKey (publicKey : Text) : Except PyError Text :=
  let candidate := strip publicKey
  if candidate = [] then
    .error (.vmDeployError "the deployer public key is empty; nothing could log in to the guest")
  else if '\n' ∈ candidate ∨ '\r' ∈ candidate then
    .error (.vmDeployError ("the deployer public key spans multiple lines; supply exactly one " ++
      "OpenSSH public key"))
  else if publicKeyTypes.any fun start => (afterPrefix? start.toList candidate).isSome then
    .ok candidate
  else
    let preview := String.ofList (reprText (candidate.takeWhile fun c => !isSpace c))
    let types := String.ofList (reprList (publicKeyTypes.map String.toList))
    .error (.vmDeployError (s!"unrecognised public key type {preview}; expected one of {types}. " ++
      "Note this must be the .pub file, not the private key."))

/-- `"\n".join` of the lines and a last empty one. -/
def joinLines (lines : List Text) : Text :=
  ['\n'].intercalate (lines ++ [[]])

def userData (hostname username key : Text) : Text :=
  joinLines
    ["#cloud-config".toList,
      "hostname: ".toList ++ yamlQuote hostname,
      "fqdn: ".toList ++ yamlQuote hostname,
      "preserve_hostname: false".toList,
      "manage_etc_hosts: true".toList,
      "ssh_deletekeys: true".toList,
      "users:".toList,
      "  - name: ".toList ++ yamlQuote username,
      "    shell: /bin/bash".toList,
      "    lock_passwd: true".toList,
      "    sudo: 'ALL=(ALL) NOPASSWD:ALL'".toList,
      "    ssh_authorized_keys:".toList,
      "      - ".toList ++ yamlQuote key,
      "ssh_pwauth: false".toList,
      "disable_root: true".toList]

def renderUserData (hostname username publicKey : Text) : Except PyError Text := do
  validateHostname hostname
  validateUsername username
  let key ← validatePublicKey publicKey
  .ok (userData hostname username key)

def metaData (hostname instanceId : Text) : Text :=
  joinLines
    ["instance-id: ".toList ++ yamlQuote instanceId,
      "local-hostname: ".toList ++ yamlQuote hostname]

def renderMetaData (hostname instanceId : Text) : Except PyError Text := do
  validateHostname hostname
  .ok (metaData hostname instanceId)

open Yaml (Node)

def userNode (hostname fqdn username key : Text) : Node :=
  .mapping
    [("hostname".toList, .string hostname),
      ("fqdn".toList, .string fqdn),
      ("preserve_hostname".toList, .bool false),
      ("manage_etc_hosts".toList, .bool true),
      ("ssh_deletekeys".toList, .bool true),
      ("users".toList, .sequence
        [.mapping
          [("name".toList, .string username),
            ("shell".toList, .string "/bin/bash".toList),
            ("lock_passwd".toList, .bool true),
            ("sudo".toList, .string "ALL=(ALL) NOPASSWD:ALL".toList),
            ("ssh_authorized_keys".toList, .sequence [.string key])]]),
      ("ssh_pwauth".toList, .bool false),
      ("disable_root".toList, .bool true)]

def metaNode (hostname instanceId : Text) : Node :=
  .mapping
    [("instance-id".toList, .string instanceId),
      ("local-hostname".toList, .string hostname)]

def Printable (text : Text) : Prop :=
  ∀ c ∈ text, c = '\t' ∨ 0x20 ≤ c.toNat

section Reading

variable (hostname username key instanceId : Text)

def userTokens (hostname fqdn username key : Text) : List Yaml.Token :=
  [.entry 0 "hostname".toList (some (.quoted hostname)),
    .entry 0 "fqdn".toList (some (.quoted fqdn)),
    .entry 0 "preserve_hostname".toList (some (.plain "false".toList)),
    .entry 0 "manage_etc_hosts".toList (some (.plain "true".toList)),
    .entry 0 "ssh_deletekeys".toList (some (.plain "true".toList)),
    .entry 0 "users".toList none,
    .dash 2,
    .entry 4 "name".toList (some (.quoted username)),
    .entry 4 "shell".toList (some (.plain "/bin/bash".toList)),
    .entry 4 "lock_passwd".toList (some (.plain "true".toList)),
    .entry 4 "sudo".toList (some (.quoted "ALL=(ALL) NOPASSWD:ALL".toList)),
    .entry 4 "ssh_authorized_keys".toList none,
    .dash 6,
    .item 8 (.quoted key),
    .entry 0 "ssh_pwauth".toList (some (.plain "false".toList)),
    .entry 0 "disable_root".toList (some (.plain "true".toList))]

theorem tree_userTokens (fqdn : Text) :
    Yaml.tree (userTokens hostname fqdn username key) =
      some (userNode hostname fqdn username key) := by
  rfl

theorem joinLines_eq (lines : List Text) : joinLines lines = lines.flatMap (· ++ ['\n']) := by
  unfold joinLines
  induction lines with
  | nil => rfl
  | cons line rest ih =>
    rw [List.flatMap_cons, ← ih]
    cases rest with
    | nil => simp [List.intercalate]
    | cons next rest => simp [List.intercalate]

def field (start value : Text) : Text :=
  start ++ (Yaml.doubled value ++ ['\'', '\n'])

def leadIn (lines : List String) (start : String) : Text :=
  lines.flatMap (·.toList ++ ['\n']) ++ (start.toList ++ ['\''])

def beforeHostname : Text := leadIn ["#cloud-config"] "hostname: "

def beforeFqdn : Text := leadIn [] "fqdn: "

def beforeName : Text :=
  leadIn ["preserve_hostname: false", "manage_etc_hosts: true", "ssh_deletekeys: true", "users:"]
    "  - name: "

def beforeKey : Text :=
  leadIn ["    shell: /bin/bash", "    lock_passwd: true", "    sudo: 'ALL=(ALL) NOPASSWD:ALL'",
    "    ssh_authorized_keys:"] "      - "

def afterKey : Text := "ssh_pwauth: false\ndisable_root: true\n".toList

theorem yamlQuote_eq (value : Text) : yamlQuote value = '\'' :: (Yaml.doubled value ++ ['\'']) := by
  have same : (fun c => if c = '\'' then ['\'', '\''] else [c]) =
      fun c : Char => if c = '\'' then [c, c] else [c] := by
    funext c
    by_cases mark : c = '\''
    · simp [mark]
    · simp [mark]
  simp only [yamlQuote, Yaml.doubled, same, List.cons_append]

theorem afterKey_eq : afterKey =
    "ssh_pwauth: false".toList ++ '\n' :: ("disable_root: true".toList ++ ['\n']) := by
  decide

theorem userData_fields : userData hostname username key =
    field beforeHostname hostname ++ (field beforeFqdn hostname ++ (field beforeName username ++
      (field beforeKey key ++ afterKey))) := by
  rw [userData, joinLines_eq, afterKey_eq]
  simp only [beforeHostname, beforeFqdn, beforeName, beforeKey, leadIn, field, yamlQuote_eq,
    List.flatMap_cons, List.flatMap_nil, List.append_assoc, List.cons_append, List.nil_append,
    List.append_nil]

theorem metaData_fields : metaData hostname instanceId =
    field (leadIn [] "instance-id: ") instanceId ++
      field (leadIn [] "local-hostname: ") hostname := by
  rw [metaData, joinLines_eq]
  simp only [leadIn, field, yamlQuote_eq, List.flatMap_cons, List.flatMap_nil, List.append_assoc,
    List.cons_append, List.nil_append, List.append_nil]

open Yaml (run decoded)

-- What is read of a field and of what follows it.
theorem run_fields {start : Text} {tokens : List Yaml.Token} {place : Yaml.Place}
    (leads : run ⟨[], .start 0⟩ start = some ⟨tokens, .quoted place (.text [] [])⟩)
    (before : List Yaml.Token) (value rest : Text) :
    run ⟨before, .start 0⟩ (field start value ++ rest) =
      (decoded place.indent value).bind fun read =>
        run ⟨before ++ tokens ++ [place.token (.quoted read)], .start 0⟩ rest := by
  rw [Yaml.run_append, field, Yaml.run_field leads]
  cases decoded place.indent value with
  | none => rfl
  | some read => rfl

-- What is read before each field of the user data, and after the last one.
theorem leads_userData :
    run ⟨[], .start 0⟩ beforeHostname =
      some ⟨[], .quoted (.entry 0 "hostname".toList) (.text [] [])⟩ ∧
    run ⟨[], .start 0⟩ beforeFqdn =
      some ⟨[], .quoted (.entry 0 "fqdn".toList) (.text [] [])⟩ ∧
    run ⟨[], .start 0⟩ beforeName =
      some ⟨[.entry 0 "preserve_hostname".toList (some (.plain "false".toList)),
        .entry 0 "manage_etc_hosts".toList (some (.plain "true".toList)),
        .entry 0 "ssh_deletekeys".toList (some (.plain "true".toList)),
        .entry 0 "users".toList none, .dash 2],
        .quoted (.entry 4 "name".toList) (.text [] [])⟩ ∧
    run ⟨[], .start 0⟩ beforeKey =
      some ⟨[.entry 4 "shell".toList (some (.plain "/bin/bash".toList)),
        .entry 4 "lock_passwd".toList (some (.plain "true".toList)),
        .entry 4 "sudo".toList (some (.quoted "ALL=(ALL) NOPASSWD:ALL".toList)),
        .entry 4 "ssh_authorized_keys".toList none, .dash 6],
        .quoted (.item 8) (.text [] [])⟩ ∧
    run ⟨[], .start 0⟩ afterKey =
      some ⟨[.entry 0 "ssh_pwauth".toList (some (.plain "false".toList)),
        .entry 0 "disable_root".toList (some (.plain "true".toList))], .start 0⟩ := by
  decide +kernel

theorem leads_metaData :
    run ⟨[], .start 0⟩ (leadIn [] "instance-id: ") =
      some ⟨[], .quoted (.entry 0 "instance-id".toList) (.text [] [])⟩ ∧
    run ⟨[], .start 0⟩ (leadIn [] "local-hostname: ") =
      some ⟨[], .quoted (.entry 0 "local-hostname".toList) (.text [] [])⟩ := by
  decide

theorem load_userData : Yaml.load (userData hostname username key) =
    (decoded 1 hostname).bind fun host => (decoded 1 hostname).bind fun fqdn =>
      (decoded 5 username).bind fun name => (decoded 7 key).map (userNode host fqdn name) := by
  obtain ⟨leadsHostname, leadsFqdn, leadsName, leadsKey, ends⟩ := leads_userData
  rw [Yaml.load, Yaml.scan, userData_fields, run_fields leadsHostname]
  simp only [run_fields leadsFqdn, run_fields leadsName, run_fields leadsKey,
    Yaml.run_from ends, Yaml.Place.indent]
  cases decoded 1 hostname with
  | none => rfl
  | some host =>
    cases decoded (4 + 1) username with
    | none => rfl
    | some name =>
      cases decoded (8 - 1) key with
      | none => rfl
      | some authorized => exact tree_userTokens host name authorized host

theorem load_metaData : Yaml.load (metaData hostname instanceId) =
    (decoded 1 instanceId).bind fun id => (decoded 1 hostname).map fun host =>
      metaNode host id := by
  obtain ⟨leadsInstance, leadsLocal⟩ := leads_metaData
  rw [Yaml.load, Yaml.scan, metaData_fields, run_fields leadsInstance]
  simp only [field, Yaml.run_field leadsLocal, Yaml.Place.indent]
  cases decoded 1 instanceId with
  | none => rfl
  | some id =>
    cases decoded 1 hostname with
    | none => rfl
    | some host => rfl

theorem load_userData_iff :
    Yaml.load (userData hostname username key) =
        some (userNode hostname hostname username key) ↔
      Printable hostname ∧ Printable username ∧ Printable key := by
  rw [load_userData]
  constructor
  · intro reads
    obtain ⟨host, hosts, reads⟩ := Option.bind_eq_some_iff.mp reads
    obtain ⟨fqdn, fqdns, reads⟩ := Option.bind_eq_some_iff.mp reads
    obtain ⟨name, names, reads⟩ := Option.bind_eq_some_iff.mp reads
    obtain ⟨authorized, keys, same⟩ := Option.map_eq_some_iff.mp reads
    simp only [userNode, Yaml.Node.mapping.injEq, List.cons.injEq, Prod.mk.injEq,
      Yaml.Node.string.injEq, Yaml.Node.sequence.injEq, true_and, and_true] at same
    obtain ⟨rfl, -, rfl, rfl⟩ := same
    exact ⟨(Yaml.decoded_iff 1 _).mp hosts, (Yaml.decoded_iff 5 _).mp names,
      (Yaml.decoded_iff 7 _).mp keys⟩
  · rintro ⟨hosts, names, keys⟩
    rw [(Yaml.decoded_iff 1 hostname).mpr hosts, (Yaml.decoded_iff 5 username).mpr names,
      (Yaml.decoded_iff 7 key).mpr keys]
    rfl

theorem load_metaData_iff :
    Yaml.load (metaData hostname instanceId) = some (metaNode hostname instanceId) ↔
      Printable hostname ∧ Printable instanceId := by
  rw [load_metaData]
  constructor
  · intro reads
    obtain ⟨id, ids, reads⟩ := Option.bind_eq_some_iff.mp reads
    obtain ⟨host, hosts, same⟩ := Option.map_eq_some_iff.mp reads
    simp only [metaNode, Yaml.Node.mapping.injEq, List.cons.injEq, Prod.mk.injEq,
      Yaml.Node.string.injEq, true_and, and_true] at same
    obtain ⟨rfl, rfl⟩ := same
    exact ⟨(Yaml.decoded_iff 1 _).mp hosts, (Yaml.decoded_iff 1 _).mp ids⟩
  · rintro ⟨hosts, ids⟩
    rw [(Yaml.decoded_iff 1 hostname).mpr hosts, (Yaml.decoded_iff 1 instanceId).mpr ids]
    rfl

end Reading

theorem validatePublicKey_ok {publicKey key : Text}
    (accepts : validatePublicKey publicKey = .ok key) : key = strip publicKey := by
  unfold validatePublicKey at accepts
  dsimp only at accepts
  split_ifs at accepts
  exact (Except.ok.inj accepts).symm

theorem renderUserData_ok {hostname username publicKey user : Text}
    (renders : renderUserData hostname username publicKey = .ok user) :
    user = userData hostname username (strip publicKey) := by
  obtain ⟨_, -, renders⟩ := of_bind_ok renders
  obtain ⟨_, -, renders⟩ := of_bind_ok renders
  obtain ⟨key, accepts, same⟩ := of_bind_ok renders
  rw [validatePublicKey_ok accepts] at same
  exact (Except.ok.inj same).symm

theorem renderMetaData_ok {hostname instanceId found : Text}
    (renders : renderMetaData hostname instanceId = .ok found) :
    found = metaData hostname instanceId := by
  obtain ⟨_, -, same⟩ := of_bind_ok renders
  exact (Except.ok.inj same).symm

/-- Rendered documents say what they were given exactly when it has no control characters
but tabs: the patterns let a line feed end a name, and nothing looks inside a key or an id. -/
theorem documents_read_iff {hostname username publicKey instanceId user found : Text}
    (rendersUser : renderUserData hostname username publicKey = .ok user)
    (rendersMeta : renderMetaData hostname instanceId = .ok found) :
    (Yaml.load user = some (userNode hostname hostname username (strip publicKey)) ∧
        Yaml.load found = some (metaNode hostname instanceId)) ↔
      Printable hostname ∧ Printable username ∧ Printable (strip publicKey) ∧
        Printable instanceId := by
  rw [renderUserData_ok rendersUser, renderMetaData_ok rendersMeta, load_userData_iff,
    load_metaData_iff]
  tauto

theorem printable_iff_all (text : Text) :
    Printable text ↔ text.all (fun c => c = '\t' || 32 ≤ c.toNat) = true := by
  simp [Printable]

theorem jump_documents_read :
    Yaml.load (userData "apjump".toList "apadmin".toList "ssh-ed25519 AAAA ada@host".toList) =
        some (userNode "apjump".toList "apjump".toList "apadmin".toList
          "ssh-ed25519 AAAA ada@host".toList) ∧
      Yaml.load (metaData "apjump".toList "apjump-4f".toList) =
        some (metaNode "apjump".toList "apjump-4f".toList) :=
  (documents_read_iff
    (show renderUserData _ _ "ssh-ed25519 AAAA ada@host\n".toList = _ by rfl)
    rfl).mpr (by simp only [printable_iff_all]; decide)

/-- A hostname that ends in a line feed renders, and no reader of the document finds it. -/
theorem line_feed_hostname_unread : ∃ user found,
    renderUserData "apjump\n".toList "apadmin".toList "ssh-ed25519 AAAA".toList = .ok user ∧
      renderMetaData "apjump\n".toList "apjump-4f".toList = .ok found ∧
      Yaml.load user = none ∧ Yaml.load found = none := by
  refine ⟨userData "apjump\n".toList "apadmin".toList "ssh-ed25519 AAAA".toList,
    metaData "apjump\n".toList "apjump-4f".toList, rfl, rfl, ?_, ?_⟩
  · rw [load_userData, show Yaml.decoded 1 "apjump\n".toList = none by rfl]
    rfl
  · rw [load_metaData, show Yaml.decoded 1 "apjump\n".toList = none by rfl]
    rfl

end VmDeploy.Seed
