import VmDeploy.Encoding.AesGcm
import VmDeploy.Encoding.JsonText

/-! Records of the cluster registry, and the authenticated cipher of its files. -/

set_option autoImplicit false

namespace VmDeploy.Inventory

abbrev Bytes := List UInt8

inductive Field where
  | hostname
  | role
  | ipv4
  | ipv6
  | status
  | statusTimestamp
  | state
  | stateTimestamp
  deriving DecidableEq, Repr

def Field.name : Field → String
  | .hostname => "hostname"
  | .role => "role"
  | .ipv4 => "ipv4"
  | .ipv6 => "ipv6"
  | .status => "status"
  | .statusTimestamp => "status_timestamp"
  | .state => "state"
  | .stateTimestamp => "state_timestamp"

def fields : List Field :=
  [.hostname, .role, .ipv4, .ipv6, .status, .statusTimestamp, .state, .stateTimestamp]

theorem mem_fields (field : Field) : field ∈ fields := by
  cases field <;> decide

theorem name_injective {first second : Field}
    (same : first.name.toList = second.name.toList) : first = second := by
  have all : ∀ first ∈ fields, ∀ second ∈ fields,
      first.name.toList = second.name.toList → first = second := by decide
  exact all first (mem_fields first) second (mem_fields second) same

/-- One host; `T` is the type of strings of the language. -/
@[ext] structure Record (T : Type) where
  hostname : T
  role : T
  ipv4 : T
  ipv6 : T
  status : T
  statusTimestamp : T
  state : T
  stateTimestamp : T
  deriving DecidableEq, Repr

variable {T S : Type}

def Record.get (record : Record T) : Field → T
  | .hostname => record.hostname
  | .role => record.role
  | .ipv4 => record.ipv4
  | .ipv6 => record.ipv6
  | .status => record.status
  | .statusTimestamp => record.statusTimestamp
  | .state => record.state
  | .stateTimestamp => record.stateTimestamp

def Record.set (record : Record T) (field : Field) (value : T) : Record T :=
  match field with
  | .hostname => { record with hostname := value }
  | .role => { record with role := value }
  | .ipv4 => { record with ipv4 := value }
  | .ipv6 => { record with ipv6 := value }
  | .status => { record with status := value }
  | .statusTimestamp => { record with statusTimestamp := value }
  | .state => { record with state := value }
  | .stateTimestamp => { record with stateTimestamp := value }

def Record.of (value : Field → T) : Record T where
  hostname := value .hostname
  role := value .role
  ipv4 := value .ipv4
  ipv6 := value .ipv6
  status := value .status
  statusTimestamp := value .statusTimestamp
  state := value .state
  stateTimestamp := value .stateTimestamp

def Record.map (f : T → S) (record : Record T) : Record S :=
  .of fun field => f (record.get field)

@[simp] theorem get_of (value : Field → T) (field : Field) : (Record.of value).get field = value field := by
  cases field <;> rfl

theorem get_set (record : Record T) (field other : Field) (value : T) :
    (record.set field value).get other = if other = field then value else record.get other := by
  cases field <;> cases other <;> rfl

@[simp] theorem get_map (f : T → S) (record : Record T) (field : Field) :
    (record.map f).get field = f (record.get field) :=
  get_of _ _

theorem record_ext {first second : Record T} (same : ∀ field, first.get field = second.get field) :
    first = second := by
  ext1
  · exact same .hostname
  · exact same .role
  · exact same .ipv4
  · exact same .ipv6
  · exact same .status
  · exact same .statusTimestamp
  · exact same .state
  · exact same .stateTimestamp

def keyBytes : Nat := 32

def nonceBytes : Nat := 12

def tagBytes : Nat := 16

/-- AES-256-GCM without associated data. -/
structure Aead where
  encrypt : (key nonce plaintext : Bytes) → Bytes
  decrypt : (key nonce sealed : Bytes) → Option Bytes

/-- What was sealed is opened under the same key and nonce. -/
def Aead.Opens (aead : Aead) : Prop :=
  ∀ key nonce plaintext, key.length = keyBytes → nonce.length = nonceBytes →
    aead.decrypt key nonce (aead.encrypt key nonce plaintext) = some plaintext

/-- A sealed text is the ciphertext and its tag. -/
def Aead.Tagged (aead : Aead) : Prop :=
  ∀ key nonce plaintext, (aead.encrypt key nonce plaintext).length = plaintext.length + tagBytes

def aesGcm : Aead where
  encrypt := AesGcm.encrypt
  decrypt := AesGcm.decrypt

theorem aesGcm_opens : aesGcm.Opens :=
  fun key nonce plaintext _ _ => AesGcm.decrypt_encrypt key nonce plaintext

theorem aesGcm_tagged : aesGcm.Tagged :=
  AesGcm.length_encrypt

structure Sample where
  key : Bytes
  nonce : Bytes
  plaintext : Bytes
  sealed : Bytes

def noTag : Bytes :=
  List.replicate tagBytes 0

/-- The given samples, and texts with a tag of zeros for everything else. -/
def sampled (samples : List Sample) : Aead where
  encrypt key nonce plaintext :=
    match samples.find? fun s => s.key = key ∧ s.nonce = nonce ∧ s.plaintext = plaintext with
    | some sample => sample.sealed
    | none => plaintext ++ noTag
  decrypt key nonce text :=
    match samples.find? fun s => s.key = key ∧ s.nonce = nonce ∧ s.sealed = text with
    | some sample => some sample.plaintext
    | none =>
        if text.drop (text.length - tagBytes) = noTag then some (text.take (text.length - tagBytes))
        else none

/-- The samples are those of a cipher, and none has the tag of zeros. -/
def Consistent (samples : List Sample) : Prop :=
  ∀ s ∈ samples, s.sealed.length = s.plaintext.length + tagBytes ∧
    s.sealed.drop (s.sealed.length - tagBytes) ≠ noTag ∧
    ∀ t ∈ samples, t.key = s.key → t.nonce = s.nonce → t.sealed = s.sealed →
      t.plaintext = s.plaintext

instance (samples : List Sample) : Decidable (Consistent samples) :=
  inferInstanceAs (Decidable (∀ s ∈ samples, _ ∧ _ ∧ ∀ t ∈ samples, _))

theorem sampled_opens {samples : List Sample} (consistent : Consistent samples) :
    (sampled samples).Opens := by
  intro key nonce plaintext _ _
  cases known : samples.find? fun s => s.key = key ∧ s.nonce = nonce ∧ s.plaintext = plaintext with
  | some s =>
    have member := List.mem_of_find?_eq_some known
    have same : s.key = key ∧ s.nonce = nonce ∧ s.plaintext = plaintext := by
      simpa using List.find?_some known
    obtain ⟨rfl, rfl, rfl⟩ := same
    simp only [sampled, known]
    cases found : samples.find? fun t => t.key = s.key ∧ t.nonce = s.nonce ∧ t.sealed = s.sealed with
    | some t =>
      have same : t.key = s.key ∧ t.nonce = s.nonce ∧ t.sealed = s.sealed := by
        simpa using List.find?_some found
      obtain ⟨key, nonce, text⟩ := same
      exact congrArg some
        ((consistent s member).2.2 t (List.mem_of_find?_eq_some found) key nonce text)
    | none => simpa using List.find?_eq_none.mp found s member
  | none =>
    simp only [sampled, known]
    have length : (plaintext ++ noTag).length - tagBytes = plaintext.length := by
      rw [List.length_append]
      exact Nat.add_sub_cancel _ _
    cases found : samples.find? fun t => t.key = key ∧ t.nonce = nonce ∧
        t.sealed = plaintext ++ noTag with
    | some t =>
      have same : t.key = key ∧ t.nonce = nonce ∧ t.sealed = plaintext ++ noTag := by
        simpa using List.find?_some found
      have tag := (consistent t (List.mem_of_find?_eq_some found)).2.1
      rw [same.2.2, length, List.drop_left] at tag
      exact absurd rfl tag
    | none =>
      simp only
      rw [length, List.drop_left, List.take_left, if_pos rfl]

theorem sampled_tagged {samples : List Sample} (consistent : Consistent samples) :
    (sampled samples).Tagged := by
  intro key nonce plaintext
  cases known : samples.find? fun s => s.key = key ∧ s.nonce = nonce ∧ s.plaintext = plaintext with
  | some s =>
    have same : s.key = key ∧ s.nonce = nonce ∧ s.plaintext = plaintext := by
      simpa using List.find?_some known
    obtain ⟨rfl, rfl, rfl⟩ := same
    simp only [sampled, known]
    exact (consistent s (List.mem_of_find?_eq_some known)).1
  | none =>
    simp only [sampled, known]
    exact List.length_append

end VmDeploy.Inventory
