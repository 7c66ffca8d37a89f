import VmDeploy.Encoding.JsonCompact
import VmDeploy.Inventory.Linearized
import VmDeploy.Inventory.Writers

/-! The handlers of `main.go`, and what their responses say in every run of the service. -/

set_option autoImplicit false

open Effects Json

namespace VmDeploy.Inventory

structure HttpRequest where
  method : String
  path : String
  body : Bytes

structure HttpResponse where
  status : Nat
  headers : List (String × String)
  body : Bytes
  deriving DecidableEq, Repr

/-- The readings of `utcTimestamp` that one request takes. -/
structure Clock where
  status : String
  state : String
  rendered : String
  stamped : status ≠ "" ∧ state ≠ ""

/-- The errors of the decoder of a body, `%q`, and the template of the cluster view. -/
structure HttpTexts where
  decodeError : Bytes → String
  quote : String → String
  page : List (Record String) → String → Except String Bytes

def InvalidRecord.text (quote : String → String) : InvalidRecord → String
  | .noHostname => "record requires a non-empty hostname"
  | .badRole role => s!"record role must be 'jump' or 'backend', got {quote role}"

/-- What a handler makes of a request: a response, or one call of its store and then a response. -/
inductive Handling where
  | answer (response : HttpResponse)
  | load (next : Except ServiceError (List (Record String)) → HttpResponse)
  | upsert (candidate : Record String)
      (next : Except ServiceError (List (Record String)) → HttpResponse)
  | rawCiphertext (next : Except ServiceError Bytes → HttpResponse)

def Handling.call? : Handling → Option StoreCall
  | .answer _ => none
  | .load _ => some .load
  | .upsert candidate _ => some (.upsert candidate)
  | .rawCiphertext _ => some .rawCiphertext

def Handling.respond : Handling → Outcome ServiceError StoreAnswer → Option HttpResponse
  | .answer response, _ => some response
  | .load next, .returned (.records records) => some (next (.ok records))
  | .load next, .raised error => some (next (.error error))
  | .upsert _ next, .returned (.records records) => some (next (.ok records))
  | .upsert _ next, .raised error => some (next (.error error))
  | .rawCiphertext next, .returned (.blob blob) => some (next (.ok blob))
  | .rawCiphertext next, .raised error => some (next (.error error))
  | _, _ => none

def textBytes (text : String) : Bytes :=
  Utf8.encode text.toList

/-- The encoder puts a line break after a payload. -/
def writeJSON (status : Nat) (payload : List Char) (headers : List (String × String)) : HttpResponse :=
  ⟨status, headers ++ [("Content-Type", "application/json; charset=utf-8")],
    Utf8.encode (payload ++ ['\n'])⟩

def jsonMap (members : List (String × String)) : List Char :=
  compactObject htmlEscape (members.map fun member => (member.1.toList, member.2.toList))

def jsonRecords (records : List (Record String)) : List Char :=
  compactArray htmlEscape (records.map structFields)

def methodNotAllowed (allowed : List String) : HttpResponse :=
  writeJSON 405 (jsonMap [("error", "method not allowed")]) (allowed.map fun method => ("Allow", method))

def fail : ServiceError ⊕ String → HttpResponse
  | .inl .decryptionFailed =>
      writeJSON 500 (jsonMap [("error", "inventory decryption failed"),
        ("hint", "the service key does not match the datastore, or the datastore was altered")]) []
  | .inl error => writeJSON 500 (jsonMap [("error", error.text)]) []
  | .inr text => writeJSON 500 (jsonMap [("error", text)]) []

def handleRoot (request : HttpRequest) : HttpResponse :=
  if request.path ≠ "/" then
    ⟨404, [("Content-Type", "text/plain; charset=utf-8"), ("X-Content-Type-Options", "nosniff")],
      textBytes "404 page not found\n"⟩
  else
    ⟨302, ("Location", "/clusterview") ::
        (if request.method = "GET" ∨ request.method = "HEAD" then
          [("Content-Type", "text/html; charset=utf-8")] else []),
      if request.method = "GET" then textBytes "<a href=\"/clusterview\">Found</a>.\n\n" else []⟩

def handleHealth (request : HttpRequest) : HttpResponse :=
  if request.method ≠ "GET" then methodNotAllowed ["GET"]
  else ⟨200, [("Content-Type", "text/plain; charset=utf-8")], textBytes "ok\n"⟩

section Handlers

variable (texts : HttpTexts) (clock : Clock) (request : HttpRequest)

/-- The page is rendered before the status is committed. -/
def showPage : Except ServiceError (List (Record String)) → HttpResponse
  | .error error => fail (.inl error)
  | .ok records =>
      match texts.page records clock.rendered with
      | .error cause => fail (.inr s!"cannot render cluster view: {cause}")
      | .ok page => ⟨200, [("Content-Type", "text/html; charset=utf-8")], page⟩

def showRecords : Except ServiceError (List (Record String)) → HttpResponse
  | .error error => fail (.inl error)
  | .ok records => writeJSON 200 (jsonRecords records) []

def showRaw : Except ServiceError Bytes → HttpResponse
  | .error error => fail (.inl error)
  | .ok blob => ⟨200, [("Content-Type", "text/plain; charset=utf-8"),
      ("X-Content-Encoding", "aes-256-gcm+base64")], blob⟩

def handleClusterView : Handling :=
  if request.method ≠ "GET" then .answer (methodNotAllowed ["GET"])
  else .load (showPage texts clock)

def handleInventory : Handling :=
  match request.method with
  | "GET" => .load showRecords
  | "POST" =>
      match decodeBody request.body with
      | none => .answer (writeJSON 400 (jsonMap [("error",
          "request body is not a valid inventory record: " ++ texts.decodeError request.body)]) [])
      | some candidate =>
          match candidate.validate with
          | .error reason => .answer (writeJSON 400 (jsonMap [("error", reason.text texts.quote)]) [])
          | .ok _ => .upsert (stamped clock.status clock.state candidate) showRecords
  | _ => .answer (methodNotAllowed ["GET", "POST"])

def handleRaw : Handling :=
  if request.method ≠ "GET" then .answer (methodNotAllowed ["GET"])
  else .rawCiphertext showRaw

def handle : Handling :=
  match request.path with
  | "/healthz" => .answer (handleHealth request)
  | "/clusterview" => handleClusterView texts clock request
  | "/api/inventory" => handleInventory texts clock request
  | "/api/inventory/raw" => handleRaw request
  | _ => .answer (handleRoot request)

end Handlers

/-- A request that has come to a call of the store. -/
structure Routed (texts : HttpTexts) where
  request : HttpRequest
  clock : Clock
  call : StoreCall
  calls : (handle texts clock request).call? = some call

def httpServer (http : HttpTexts) (texts : GoTexts) (aead : Aead) (store : Store) :
    Server storeSignature ServiceError StoreAnswer (Routed http) Directory StoreChoice :=
  storeServer texts aead store Routed.call (Seeds aead store.key)

theorem jsonUnmarshal_records (records : List (Record String)) :
    jsonUnmarshal (Utf8.encode (jsonRecords records ++ ['\n'])) = some records := by
  have values : (records.map structFields).map objectValue =
      records.map fun record => .object (written fields record) :=
    values_texts fields records
  rw [jsonUnmarshal, Utf8.lossy_encode, jsonRecords, read_compactArray rfl htmlEscape_escapes,
    Option.bind_some, values]
  exact unmarshal_array mem_fields records

section Calls

variable {http : HttpTexts} {clock : Clock} {request : HttpRequest}

/-- The requests that come to a call. Only a `POST` of a valid record comes to an upsert, of that
record with its timestamps. -/
inductive Calls (http : HttpTexts) (clock : Clock) (request : HttpRequest) :
    StoreCall → Handling → Prop where
  | page : request.path = "/clusterview" → request.method = "GET" →
      Calls http clock request .load (.load (showPage http clock))
  | list : request.path = "/api/inventory" → request.method = "GET" →
      Calls http clock request .load (.load showRecords)
  | post {record : Record String} : request.path = "/api/inventory" → request.method = "POST" →
      decodeBody request.body = some record → record.validate = .ok () →
      Calls http clock request (.upsert (stamped clock.status clock.state record))
        (.upsert (stamped clock.status clock.state record) showRecords)
  | raw : request.path = "/api/inventory/raw" → request.method = "GET" →
      Calls http clock request .rawCiphertext (.rawCiphertext showRaw)

theorem handle_calls {call : StoreCall} (calls : (handle http clock request).call? = some call) :
    Calls http clock request call (handle http clock request) := by
  unfold handle at calls ⊢
  split at calls
  · cases calls
  · next path =>
    unfold handleClusterView at calls ⊢
    split at calls
    · cases calls
    · next method =>
      cases calls
      rw [if_neg method]
      exact .page path (not_not.mp method)
  · next path =>
    unfold handleInventory at calls ⊢
    split at calls
    · next method =>
      cases calls
      exact .list path method
    · next method =>
      split at calls
      · cases calls
      · next record decodes =>
        split at calls
        · cases calls
        · next valid =>
          cases calls
          exact .post path method decodes valid
    · cases calls
  · next path =>
    unfold handleRaw at calls ⊢
    split at calls
    · cases calls
    · next method =>
      cases calls
      rw [if_neg method]
      exact .raw path (not_not.mp method)
  · cases calls

end Calls

def exampleHttp : HttpTexts where
  decodeError := fun _ => "EOF"
  quote := fun text => s!"\"{text}\""
  page := fun _ _ => .ok []

def exampleClock : Clock :=
  ⟨"2026-01-01T00:00:00Z", "2026-01-01T00:00:00Z", "2026-01-01T00:00:00Z", by decide⟩

def exampleNode : Record String :=
  ⟨"apnode1", "backend", "", "", "", "2026-01-01T00:00:00Z", "", "2026-01-01T00:00:00Z"⟩

def examplePost : Routed exampleHttp where
  request := ⟨"POST", "/api/inventory", plainBody⟩
  clock := exampleClock
  call := .upsert exampleNode
  calls := by decide +kernel

def exampleFetch : Routed exampleHttp where
  request := ⟨"GET", "/api/inventory/raw", []⟩
  clock := exampleClock
  call := .rawCiphertext
  calls := rfl

section Runs

variable {http : HttpTexts} {texts : GoTexts} {aead : Aead} {store : Store}
  {initial : List (Record String)} {file : Option Bytes}
  {pool : Pool storeSignature ServiceError StoreAnswer (Routed http) Directory}

theorem mem_getD {P : List (Record String) → Prop} {registries : List (List (Record String))}
    (each : ∀ records ∈ registries, P records) (sound : P initial) (count : Nat) :
    P (registries[count]?.getD initial) := by
  cases found : registries[count]? with
  | none => exact sound
  | some records => exact each records (List.mem_of_getElem? found)

theorem wellFormed_apply {request : HttpRequest} {clock : Clock} {call : StoreCall}
    (calls : (handle http clock request).call? = some call) {records : List (Record String)}
    (before : WellFormed records) : WellFormed (call.apply records) := by
  have kind := handle_calls calls
  generalize handle http clock request = handling at kind
  cases kind with
  | page => exact before
  | list => exact before
  | @post record path method decodes valid =>
    obtain ⟨named, role⟩ := validate_ok valid
    exact wellFormed_upsert before named role (stamped_stamps clock.stamped.1 clock.stamped.2 record)
  | raw => exact before

/-- Whatever the requests are and however they overlap, fail and are cut off, each registry that
there has been lists well-formed records, one for a host, if those that are seeded do. -/
theorem http_registry_wellFormed {start : Directory} (untouched : start.Untouched file)
    (sound : WellFormed initial)
    (reached : (httpServer http texts aead store).Reached start pool)
    (seeds : ∀ records content, .seeded records content ∈ pool.world.changes → WellFormed records)
    (count : Nat) : WellFormed (version initial pool.world.changes count) := by
  have accounted := accounted_reached untouched (fun _ _ => id) reached
  have each : ∀ changes : List Change, (∀ change ∈ changes, change ∈ pool.world.changes) →
      ∀ records ∈ versions initial changes, WellFormed records := by
    intro changes known
    induction changes using List.reverseRecOn with
    | nil =>
      intro records member
      rw [List.mem_singleton.mp member]
      exact sound
    | append_singleton changes change ih =>
      have before := ih fun change member => known change (List.mem_append_left _ member)
      have last := known change (List.mem_append_right _ List.mem_cons_self)
      rw [versions_snoc]
      intro records member
      cases change with
      | seeded made content =>
        rcases List.mem_append.mp member with old | new
        · exact before records old
        · rw [List.mem_singleton.mp new]
          exact seeds made content last
      | replaced who made seen content =>
        rcases List.mem_append.mp member with old | new
        · exact before records old
        · obtain ⟨thread, -, same⟩ := accounted who made seen content last
          rw [List.mem_singleton.mp new, same]
          refine wellFormed_apply thread.request.calls ?_
          exact mem_getD before sound seen
  exact mem_getD (each _ fun _ => id) sound count

def exampleSeeds : List (Record String) :=
  buildRecords "2026-01-01T00:00:00Z" (Config.exampleCluster "apjump" Config.exampleNodes)
    exampleAddresses []

theorem exampleSeeds_wellFormed : WellFormed exampleSeeds :=
  wellFormed_build (Config.sound_of_load Config.example_loads) (by decide) _ _

def examplePosted : List (Record String) :=
  upsertInto exampleNode exampleSeeds

def examplePosts (seeded left : Directory) :
    Pool storeSignature ServiceError StoreAnswer (Routed exampleHttp) Directory :=
  ⟨[⟨examplePost, seeded, .ended (.returned (.records examplePosted)) left⟩], left⟩

-- A seed, and then a `POST` that completes.
theorem example_post_served : ∃ (content blob : Bytes) (seeded left : Directory),
    (httpServer exampleHttp exampleTexts aesGcm exampleStore).Reached exampleStart
        (examplePosts seeded left) ∧
      left.changes = [.seeded exampleSeeds content, .replaced 0 examplePost.call 1 blob] := by
  obtain ⟨content, made, loaded, -⟩ := @holds_client exampleInterpreter exampleTexts aesGcm exampleKey
    aesGcm_opens aesGcm_tagged rfl exampleNonce rfl exampleSeeds
  obtain ⟨blob, sealed, -⟩ := @sealRecords_loads exampleTexts aesGcm exampleKey exampleNonce
    aesGcm_opens aesGcm_tagged rfl rfl examplePosted
  let seeded : Directory :=
    { exampleStart with file := some content, changes := [.seeded exampleSeeds content] }
  have written : upsertFile exampleTexts aesGcm exampleKey exampleNode exampleNonce (some content) =
      .ok (examplePosted, blob) := by
    rw [upsertFile, loaded]
    rw [examplePosted] at sealed ⊢
    simp only [bind, Except.bind, sealed]
  obtain ⟨left, runs, -, changes, -⟩ := @eval_upsert exampleTexts aesGcm exampleStore seeded _ _ blob
    exampleChoice rfl rfl written 0
  refine ⟨content, blob, seeded, left, ?_, changes⟩
  have seeding : (httpServer exampleHttp exampleTexts aesGcm exampleStore).Reached exampleStart
      ⟨[], seeded⟩ :=
    .next .start (.outside (@Seeds.seed _ _ exampleStart _ exampleChoice.nonce _ made))
  exact seeding.later (Server.serve_alone (fun thread member => by cases member) runs
    (fun same => by cases same))

theorem example_post_wellFormed : ∃ (content blob : Bytes) (left : Directory),
    left.changes = [.seeded exampleSeeds content, .replaced 0 examplePost.call 1 blob] ∧
      version [] left.changes 2 = examplePosted ∧ WellFormed (version [] left.changes 2) := by
  obtain ⟨content, blob, seeded, left, reached, changes⟩ := example_post_served
  refine ⟨content, blob, left, changes, by rw [changes]; rfl, ?_⟩
  refine http_registry_wellFormed example_untouched wellFormed_nil reached ?_ 2
  intro records further member
  change Change.seeded records further ∈ left.changes at member
  rw [changes, List.mem_cons, List.mem_singleton] at member
  rcases member with first | second
  · cases first
    exact exampleSeeds_wellFormed
  · cases second

/-- What a response says, of the file and the registry as they were at a moment of the request. -/
structure Truthful (initial : List (Record String)) (file : Option Bytes) (who : Nat)
    (called left now : Directory) (routed : Routed http) (response : HttpResponse)
    (moment : List Change) : Prop where
  since : called.changes <+: moment
  until_end : moment <+: left.changes
  status : response.status = 200 ∨ response.status = 500
  changed : routed.request.method = "POST" → (response.status = 200 ↔ ¬ Unreplaced who now)
  kept : routed.request.method ≠ "POST" → Unreplaced who now
  own : routed.request.method = "POST" → response.status = 200 →
    ∃ before seen content, moment = before ++ [.replaced who routed.call seen content]
  registry : response.status = 200 → routed.request.path = "/api/inventory" →
    jsonUnmarshal response.body = some (Inventory.registry initial moment)
  page : response.status = 200 → routed.request.path = "/clusterview" →
    http.page (Inventory.registry initial moment) routed.clock.rendered = .ok response.body
  raw : response.status = 200 → routed.request.path = "/api/inventory/raw" →
    response.body = (fileAfter file moment).getD []

theorem fail_status (error : ServiceError ⊕ String) : (fail error).status = 500 := by
  cases error with
  | inl error => cases error <;> rfl
  | inr text => rfl

section Responses

variable {who : Nat} {called left now : Directory} {routed : Routed http}

theorem truthful_fail (since : called.changes <+: left.changes) (unreplaced : Unreplaced who now)
    (error : ServiceError ⊕ String) :
    Truthful initial file who called left now routed (fail error) left.changes := by
  have failed : ¬ (fail error).status = 200 := by
    rw [fail_status]
    decide
  constructor
  · exact since
  · exact List.prefix_refl _
  · exact .inr (fail_status error)
  · exact fun _ => iff_of_false failed (not_not.mpr unreplaced)
  · exact fun _ => unreplaced
  · exact fun _ ok => absurd ok failed
  · exact fun ok => absurd ok failed
  · exact fun ok => absurd ok failed
  · exact fun ok => absurd ok failed

theorem truthful_respond {outcome : Outcome ServiceError StoreAnswer}
    (since : called.changes <+: left.changes) (shown : left.changes <+: now.changes)
    (answered : Answered store initial file who called left now routed.call outcome) :
    ∃ response moment,
      (handle http routed.clock routed.request).respond outcome = some response ∧
        Truthful initial file who called left now routed response moment := by
  have kind := handle_calls routed.calls
  generalize handle http routed.clock routed.request = handling at kind ⊢
  generalize made : routed.call = call at kind answered
  have early : ∀ {count : Nat}, called.changes.length ≤ count → count ≤ left.changes.length →
      called.changes <+: left.changes.take count := by
    intro count after within
    refine List.prefix_of_prefix_length_le since (List.take_prefix _ _) ?_
    rwa [List.length_take_of_le within]
  cases kind with
  | page path method =>
    cases answered with
    | @loaded count after within unreplaced =>
      rw [version_take within]
      cases rendered :
          http.page (Inventory.registry initial (left.changes.take count)) routed.clock.rendered with
      | error cause =>
        refine ⟨_, left.changes, rfl, ?_⟩
        rw [showPage, rendered]
        exact truthful_fail since unreplaced _
      | ok body =>
        refine ⟨_, left.changes.take count, rfl, ?_⟩
        rw [showPage, rendered]
        constructor
        · exact early after within
        · exact List.take_prefix _ _
        · exact .inl rfl
        · simp [method]
        · exact fun _ => unreplaced
        · simp [method]
        · simp [path]
        · exact fun _ _ => rendered
        · simp [path]
    | unread cause reads unreplaced =>
      exact ⟨_, _, rfl, truthful_fail since unreplaced (.inl (.cannotRead store.path cause))⟩
  | list path method =>
    cases answered with
    | @loaded count after within unreplaced =>
      rw [version_take within]
      refine ⟨_, left.changes.take count, rfl, ?_⟩
      constructor
      · exact early after within
      · exact List.take_prefix _ _
      · exact .inl rfl
      · simp [method]
      · exact fun _ => unreplaced
      · simp [method]
      · exact fun _ _ => jsonUnmarshal_records _
      · simp [path]
      · simp [path]
    | unread cause reads unreplaced =>
      exact ⟨_, _, rfl, truthful_fail since unreplaced (.inl (.cannotRead store.path cause))⟩
  | @post record path method decodes valid =>
    cases answered with
    | @upserted candidate before seen content after within own =>
      have inside : seen ≤ before.length := within
      have replaced : ¬ Unreplaced who now := by
        have member : who ∈ now.changes.filterMap Change.who? :=
          List.mem_filterMap.mpr
            ⟨_, (own.trans shown).subset (List.mem_append_right _ List.mem_cons_self), rfl⟩
        exact not_not.mpr member
      let candidate := stamped routed.clock.status routed.clock.state record
      refine ⟨_, before ++ [.replaced who (.upsert candidate) seen content], rfl, ?_⟩
      constructor
      · exact List.prefix_of_prefix_length_le since own (by
          rw [List.length_append]
          omega)
      · exact own
      · exact .inl rfl
      · exact fun _ => iff_of_true rfl replaced
      · exact fun other => absurd method other
      · intro _ _
        rw [made]
        exact ⟨before, seen, content, rfl⟩
      · intro _ _
        rw [registry_replaced]
        exact jsonUnmarshal_records _
      · simp [path]
      · simp [path]
    | refused error unreplaced => exact ⟨_, _, rfl, truthful_fail since unreplaced (.inl error)⟩
    | unread cause reads unreplaced => cases reads
  | raw path method =>
    cases answered with
    | @read count after within unreplaced =>
      refine ⟨_, left.changes.take count, rfl, ?_⟩
      constructor
      · exact early after within
      · exact List.take_prefix _ _
      · exact .inl rfl
      · simp [method]
      · exact fun _ => unreplaced
      · simp [method]
      · simp [path]
      · simp [path]
      · exact fun _ _ => rfl
    | unread cause reads unreplaced =>
      exact ⟨_, _, rfl, truthful_fail since unreplaced (.inl (.cannotRead store.path cause))⟩

end Responses

section Responses

variable {start left : Directory} {who : Nat} {outcome : Outcome ServiceError StoreAnswer}
  {thread : Thread storeSignature ServiceError StoreAnswer (Routed http) Directory}

theorem responded (opens : aead.Opens) (tagged : aead.Tagged)
    (loads : loadRecords texts aead store.key file = .ok initial) (untouched : start.Untouched file)
    (reached : (httpServer http texts aead store).Reached start pool)
    (there : pool.threads[who]? = some thread) (ended : thread.phase = .ended outcome left) :
    left.changes <+: pool.world.changes ∧ ∃ response moment,
      (handle http thread.request.clock thread.request.request).respond outcome = some response ∧
        Truthful initial file who thread.called left pool.world thread.request response moment := by
  have kept := store_kept opens tagged loads untouched (fun _ _ => id) reached
  have stands := (kept.each who thread there).2
  rw [Server.Stands, ended] at stands
  obtain ⟨since, shown, -, answered⟩ := stands
  exact ⟨shown, truthful_respond since shown answered⟩

/-- Every request that a stop has not cut off has a response that says what has happened: a `POST`
is answered by 200 just when its record has been put into the registry, and with the registry that
has come of it; nothing else changes it. -/
theorem responses_truthful (opens : aead.Opens) (tagged : aead.Tagged)
    (loads : loadRecords texts aead store.key file = .ok initial) (untouched : start.Untouched file)
    (reached : (httpServer http texts aead store).Reached start pool)
    (there : pool.threads[who]? = some thread) (ended : thread.phase = .ended outcome left) :
    ∃ response moment,
      (handle http thread.request.clock thread.request.request).respond outcome = some response ∧
        Truthful initial file who thread.called left pool.world thread.request response moment :=
  (responded opens tagged loads untouched reached there ended).2

theorem example_post_truthful : ∃ (seeded left : Directory) (response : HttpResponse)
    (moment : List Change),
    (handle exampleHttp exampleClock examplePost.request).respond
        (.returned (.records examplePosted)) = some response ∧
      Truthful [] none 0 seeded left left examplePost response moment := by
  obtain ⟨-, -, seeded, left, reached, -⟩ := example_post_served
  have there : (examplePosts seeded left).threads[0]? =
      some ⟨examplePost, seeded, .ended (.returned (.records examplePosted)) left⟩ := rfl
  have loads : loadRecords exampleTexts aesGcm exampleStore.key none = .ok [] := rfl
  obtain ⟨response, moment, responds, truthful⟩ :=
    responses_truthful aesGcm_opens aesGcm_tagged loads example_untouched reached there rfl
  exact ⟨seeded, left, response, moment, responds, truthful⟩

theorem holds_payload {py : Interpreter} (opens : aead.Opens) (tagged : aead.Tagged)
    {records : List (Record String)} {content : Bytes}
    (payload : Payload aead store.key records content) :
    Holds py texts aead store.key (some content) records := by
  cases payload with
  | service nonce written =>
    obtain ⟨blob, made, both⟩ := @holds_service py texts aead store.key opens tagged
      (strong_of_sealed written) nonce.bytes nonce.sized records
    cases made.symm.trans written
    exact both
  | client nonce written =>
    obtain ⟨blob, made, both⟩ := @holds_client py texts aead store.key opens tagged
      (strong_of_encrypted written) nonce.bytes nonce.sized records
    cases made.symm.trans written
    exact both

-- Both sides read each file that there has been as the registry of its time.
theorem holds_after {py : Interpreter} (opens : aead.Opens) (tagged : aead.Tagged)
    (holds : Holds py texts aead store.key file initial) {directory : Directory}
    (recorded : Recorded aead store initial file directory) {changes : List Change}
    (shown : changes <+: directory.changes) :
    Holds py texts aead store.key (fileAfter file changes) (Inventory.registry initial changes) := by
  rcases List.eq_nil_or_concat' changes with rfl | ⟨before, change, rfl⟩
  · exact holds
  · rw [fileAfter_snoc]
    exact holds_payload opens tagged (recorded.whole before change shown)

/-- What is served at rest opens in the client, as the registry of a moment of the request. -/
theorem raw_opens_as_registry {py : Interpreter} (opens : aead.Opens) (tagged : aead.Tagged)
    (holds : Holds py texts aead store.key file initial) (untouched : start.Untouched file)
    (reached : (httpServer http texts aead store).Reached start pool)
    (there : pool.threads[who]? = some thread) (ended : thread.phase = .ended outcome left)
    (fetches : thread.request.request.path = "/api/inventory/raw") {response : HttpResponse}
    (responds :
      (handle http thread.request.clock thread.request.request).respond outcome = some response)
    (ok : response.status = 200) :
    ∃ moment, thread.called.changes <+: moment ∧ moment <+: left.changes ∧
      (response.body = [] ∧ Inventory.registry initial moment = [] ∨
        decryptRecords py aead response.body store.key =
          .ok ((Inventory.registry initial moment).map (Record.map pyText))) := by
  obtain ⟨shown, fetched, moment, respondsToo, truthful⟩ :=
    responded opens tagged holds.1 untouched reached there ended
  cases respondsToo.symm.trans responds
  refine ⟨moment, truthful.since, truthful.until_end, ?_⟩
  have kept := store_kept opens tagged holds.1 untouched (fun _ _ => id) reached
  obtain ⟨loaded, opened⟩ := holds_after opens tagged holds kept.inv (truthful.until_end.trans shown)
  rw [truthful.raw ok fetches]
  cases content : fileAfter file moment with
  | none =>
    rw [content] at loaded
    exact .inl ⟨rfl, (Except.ok.inj loaded).symm⟩
  | some blob =>
    rw [content] at opened
    exact .inr opened

theorem example_raw_opens : ∃ (response : HttpResponse) (moment : List Change),
    [] <+: moment ∧ moment <+: [] ∧
      (response.body = [] ∧ Inventory.registry [exampleRecord] moment = [] ∨
        decryptRecords exampleInterpreter exampleAead response.body exampleKey =
          .ok ((Inventory.registry [exampleRecord] moment).map (Record.map pyText))) := by
  have opens := sampled_opens samples_consistent
  have tagged := sampled_tagged samples_consistent
  obtain ⟨blob, -, holds⟩ := @holds_client exampleInterpreter exampleTexts exampleAead exampleKey opens
    tagged rfl exampleNonce rfl [exampleRecord]
  let directory : Directory := ⟨some blob, fun _ => none, [], 0, []⟩
  have untouched : directory.Untouched (some blob) := ⟨rfl, rfl, fun _ _ found => by cases found⟩
  let fetched : Thread storeSignature ServiceError StoreAnswer (Routed exampleHttp) Directory :=
    ⟨exampleFetch, directory, .ended (.returned (.blob blob)) directory⟩
  have served : (httpServer exampleHttp exampleTexts exampleAead exampleStore).Reached directory
      ⟨[fetched], directory⟩ :=
    Server.Reached.later .start (Server.serve_alone (fun thread member => by cases member)
      (@eval_rawCiphertext exampleStore directory exampleChoice rfl 0) (fun same => by cases same))
  have there : [fetched][0]? = some fetched := rfl
  exact ⟨_, raw_opens_as_registry opens tagged holds untouched served there rfl rfl rfl rfl⟩

end Responses

end Runs

end VmDeploy.Inventory
