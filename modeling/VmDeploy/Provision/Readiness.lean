import VmDeploy.Config.Accepted
import VmDeploy.Effects.Program
import VmDeploy.Exceptions

/-! `wait_for_cluster_ready`: the gate at the end of a deployment.

Clock readings are natural numbers of milliseconds. The answers and the readings of one call are
two sequences, so a result about every pair of them is a result about every call. -/

set_option autoImplicit false

open Effects

namespace VmDeploy.Provision

structure Url where
  host : String
  port : Option Nat
  path : String
  deriving DecidableEq, Repr

def Url.text (url : Url) : String :=
  match url.port with
  | none => s!"http://{url.host}{url.path}"
  | some port => s!"http://{url.host}:{port}{url.path}"

structure Server where
  host : String
  port : Nat
  deriving DecidableEq, Repr

def Url.server (url : Url) : Server :=
  ⟨url.host, url.port.getD 80⟩

/-- How `requests.get` ends at the last server it is led to: with a response, or with the text of
a `RequestException`, which may come before or after an answer of that server. -/
inductive Ending where
  | response (status : Nat)
  | exception (answered : Option Nat) (text : String)

/-- What a request comes to: each redirect that is followed, by its status and the server it leads
to, and the ending. -/
structure Exchange where
  followed : List (Nat × Server)
  ended : Ending
  redirects : ∀ hop ∈ followed, 300 ≤ hop.1 ∧ hop.1 < 400

/-- `Response.ok` of the `requests` package by the status, as far as it is documented: no error of
the client or the server, which the statuses from 400 up to 600 are. -/
structure Requests where
  ok : Nat → Bool
  below : ∀ status, status < 400 → ok status = true
  errors : ∀ status, 400 ≤ status → status < 600 → ok status = false

inductive WebOp where
  | monotonic
  | get (url : Url) (timeoutSeconds : Nat)
  | sleep (seconds : Nat)

abbrev WebOp.Reply : WebOp → Type
  | .monotonic => Nat
  | .get _ _ => Exchange
  | .sleep _ => Unit

abbrev webSignature : Signature :=
  ⟨WebOp, WebOp.Reply⟩

abbrev WebProg (A : Type) :=
  Prog webSignature PyError A

def askWeb (op : WebOp) : WebProg op.Reply :=
  Prog.perform (I := webSignature) op

/-- The value of `last_error` after a request, unless the endpoint is ready. -/
def Requests.failureOf (requests : Requests) (exchange : Exchange) : Option String :=
  match exchange.ended with
  | .response status => if requests.ok status then none else some s!"HTTP {status}"
  | .exception _ text => some text

structure Endpoint where
  url : Url
  label : String

def readinessPollSeconds : Nat := 3

def notReady (endpoint : Endpoint) (timeoutSeconds : Nat) (lastError : String) : PyError :=
  .provisioningTimeoutError
    (s!"The {endpoint.label} at {endpoint.url.text} did not become ready within {timeoutSeconds}s; " ++
      s!"last error: {lastError}")

/-- The `while` loop of one endpoint, with the last error so far. -/
def pollEndpoint (requests : Requests) (endpoint : Endpoint) (timeoutSeconds deadline : Nat) :
    Nat → String → WebProg Unit
  | 0, _ => .halt
  | polls + 1, lastError => do
      let now ← askWeb .monotonic
      if now < deadline then
        match requests.failureOf (← askWeb (.get endpoint.url 10)) with
        | none => pure ()
        | some failure => do
            askWeb (.sleep readinessPollSeconds)
            pollEndpoint requests endpoint timeoutSeconds deadline polls failure
      else
        .raise (notReady endpoint timeoutSeconds lastError)

def pollEndpoints (requests : Requests) (polls timeoutSeconds deadline : Nat) :
    List Endpoint → WebProg Unit
  | [] => pure ()
  | endpoint :: rest => do
      pollEndpoint requests endpoint timeoutSeconds deadline polls "no attempt completed"
      pollEndpoints requests polls timeoutSeconds deadline rest

def balancerEndpoint (jumpAddress : String) : Endpoint :=
  ⟨⟨jumpAddress, none, "/"⟩, "load balancer"⟩

def inventoryEndpoint (config : ClusterConfig) (jumpAddress : String) : Endpoint :=
  ⟨⟨jumpAddress, some config.inventory.servicePort, "/healthz"⟩, "inventory service"⟩

def waitForClusterReady (requests : Requests) (polls : Nat) (config : ClusterConfig)
    (jumpAddress : String) (timeoutSeconds : Nat) : WebProg Unit := do
  let started ← askWeb .monotonic
  pollEndpoints requests polls timeoutSeconds (started + 1000 * timeoutSeconds)
    [balancerEndpoint jumpAddress, inventoryEndpoint config jumpAddress]

/-- The readings of the clock and what the requests of one call come to, in order. -/
structure Timeline where
  clock : Nat → Nat
  answers : Nat → Exchange

/-- A request and the server that it went to at first. -/
structure Probe where
  first : Server
  exchange : Exchange

def contactsFrom (server : Server) : List (Nat × Server) → Ending → List (Server × Option Nat)
  | [], .response status => [(server, some status)]
  | [], .exception answered _ => [(server, answered)]
  | (status, next) :: rest, ended => (server, some status) :: contactsFrom next rest ended

def Probe.contacts (probe : Probe) : List (Server × Option Nat) :=
  contactsFrom probe.first probe.exchange.followed probe.exchange.ended

def Probe.Reaches (probe : Probe) (server : Server) : Prop :=
  ∃ answered, (server, answered) ∈ probe.contacts

def Probe.Answers (probe : Probe) (server : Server) : Prop :=
  ∃ status, (server, some status) ∈ probe.contacts ∧ status < 400

/-- How far a call has come. -/
structure Progress where
  readings : Nat
  gets : Nat
  probes : List Probe

def Timeline.reply (timeline : Timeline) : (op : WebOp) → Progress → op.Reply × Progress
  | .monotonic, w => (timeline.clock w.readings, { w with readings := w.readings + 1 })
  | .get url _, w =>
      (timeline.answers w.gets,
        { w with
          gets := w.gets + 1
          probes := w.probes ++ [⟨url.server, timeline.answers w.gets⟩] })
  | .sleep _, w => ((), w)

def Timeline.asked (timeline : Timeline) (server : Server) (request count : Nat) : List Probe :=
  (List.range' request count).map fun request => ⟨server, timeline.answers request⟩

section Timelines

variable (requests : Requests) (timeline : Timeline)

/-- The clock is read once at the start, and once before each request. -/
def Timeline.Before (deadline request : Nat) : Prop :=
  timeline.clock (request + 1) < deadline

def Timeline.Succeeds (request : Nat) : Prop :=
  requests.failureOf (timeline.answers request) = none

/-- From one request on, all fail in time until another one succeeds in time. -/
inductive Timeline.Served (deadline : Nat) : Nat → Nat → Prop where
  | here {request : Nat} (before : timeline.Before deadline request)
      (succeeds : timeline.Succeeds requests request) : Served deadline request request
  | later {request last : Nat} (before : timeline.Before deadline request)
      (fails : ¬ timeline.Succeeds requests request) (rest : Served deadline (request + 1) last) :
      Served deadline request last

/-- From one request on, all fail in time until the deadline is reached before another one. -/
inductive Timeline.Expired (deadline : Nat) : Nat → Nat → Prop where
  | here {request : Nat} (late : ¬ timeline.Before deadline request) :
      Expired deadline request request
  | later {request last : Nat} (before : timeline.Before deadline request)
      (fails : ¬ timeline.Succeeds requests request) (rest : Expired deadline (request + 1) last) :
      Expired deadline request last

end Timelines

def position (request : Nat) (probes : List Probe) : Progress :=
  ⟨request + 1, request, probes⟩

section Polling

variable {requests : Requests} {timeline : Timeline} {endpoint : Endpoint}
  {timeoutSeconds deadline : Nat}

theorem asked_succ (server : Server) (request count : Nat) :
    timeline.asked server request (count + 1) =
      ⟨server, timeline.answers request⟩ :: timeline.asked server (request + 1) count :=
  rfl

theorem mem_asked {server : Server} {request count : Nat} {probe : Probe} :
    probe ∈ timeline.asked server request count ↔
      ∃ asked, request ≤ asked ∧ asked < request + count ∧
        probe = ⟨server, timeline.answers asked⟩ := by
  simp only [Timeline.asked, List.mem_map, List.mem_range'_1]
  constructor
  · rintro ⟨asked, ⟨low, high⟩, rfl⟩
    exact ⟨asked, low, high, rfl⟩
  · rintro ⟨asked, low, high, rfl⟩
    exact ⟨asked, ⟨low, high⟩, rfl⟩

theorem asked_between {server : Server} {request count asked : Nat} (low : request ≤ asked)
    (high : asked < request + count) :
    ⟨server, timeline.answers asked⟩ ∈ timeline.asked server request count :=
  mem_asked.mpr ⟨asked, low, high, rfl⟩

-- One turn of the loop that does not end it.
theorem poll_fails {request : Nat} (before : timeline.Before deadline request) {failure : String}
    (fails : requests.failureOf (timeline.answers request) = some failure) (polls : Nat)
    (lastError : String) (probes : List Probe) :
    (pollEndpoint requests endpoint timeoutSeconds deadline (polls + 1) lastError).execute
        timeline.reply (position request probes) =
      (pollEndpoint requests endpoint timeoutSeconds deadline polls failure).execute timeline.reply
        (position (request + 1) (probes ++ [⟨endpoint.url.server, timeline.answers request⟩])) := by
  have inTime : timeline.clock (request + 1) < deadline := before
  simp only [pollEndpoint, askWeb, Prog.perform, Prog.bind_eq, Prog.bind, Prog.execute,
    Timeline.reply, position, inTime, if_true, fails]

theorem poll_succeeds {request : Nat} (before : timeline.Before deadline request)
    (succeeds : timeline.Succeeds requests request) (polls : Nat) (lastError : String)
    (probes : List Probe) :
    (pollEndpoint requests endpoint timeoutSeconds deadline (polls + 1) lastError).execute
        timeline.reply (position request probes) =
      (.returned (),
        position (request + 1) (probes ++ [⟨endpoint.url.server, timeline.answers request⟩])) := by
  have inTime : timeline.clock (request + 1) < deadline := before
  have succeeded : requests.failureOf (timeline.answers request) = none := succeeds
  simp only [pollEndpoint, askWeb, Prog.perform, Prog.bind_eq, Prog.bind, Prog.execute,
    Timeline.reply, position, inTime, if_true, succeeded, Prog.pure_eq]

theorem poll_expires {request : Nat} (late : ¬ timeline.Before deadline request) (polls : Nat)
    (lastError : String) (probes : List Probe) :
    (pollEndpoint requests endpoint timeoutSeconds deadline (polls + 1) lastError).execute
        timeline.reply (position request probes) =
      (.raised (notReady endpoint timeoutSeconds lastError), ⟨request + 2, request, probes⟩) := by
  have expired : ¬ timeline.clock (request + 1) < deadline := late
  simp only [pollEndpoint, askWeb, Prog.perform, Prog.bind_eq, Prog.bind, Prog.execute,
    Timeline.reply, position, expired, if_false]

theorem Timeline.Served.le {request last : Nat}
    (served : timeline.Served requests deadline request last) : request ≤ last := by
  induction served with
  | here before succeeds => exact le_rfl
  | later before fails rest ih => omega

theorem Timeline.Expired.le {request last : Nat}
    (expired : timeline.Expired requests deadline request last) : request ≤ last := by
  induction expired with
  | here late => exact le_rfl
  | later before fails rest ih => omega

theorem Timeline.Served.succeeds {request last : Nat}
    (served : timeline.Served requests deadline request last) : timeline.Succeeds requests last := by
  induction served with
  | here before succeeds => exact succeeds
  | later before fails rest ih => exact ih

theorem Timeline.Served.fails {request last : Nat}
    (served : timeline.Served requests deadline request last) :
    ∀ asked, request ≤ asked → asked < last → ¬ timeline.Succeeds requests asked := by
  induction served with
  | here before succeeds => exact fun asked low high => absurd high (by omega)
  | @later request last before fails rest ih =>
    intro asked low high
    rcases Nat.eq_or_lt_of_le low with rfl | later
    · exact fails
    · exact ih asked later high

theorem Timeline.Expired.fails {request last : Nat}
    (expired : timeline.Expired requests deadline request last) :
    ∀ asked, request ≤ asked → asked < last → ¬ timeline.Succeeds requests asked := by
  induction expired with
  | here late => exact fun asked low high => absurd high (by omega)
  | @later request last before fails rest ih =>
    intro asked low high
    rcases Nat.eq_or_lt_of_le low with rfl | later
    · exact fails
    · exact ih asked later high

theorem Timeline.Expired.at_once_iff {request last : Nat}
    (expired : timeline.Expired requests deadline request last) :
    last = request ↔ ¬ timeline.Before deadline request := by
  cases expired with
  | here late => exact iff_of_true rfl late
  | later before fails rest =>
    have later := rest.le
    exact iff_of_false (by omega) (not_not.mpr before)

theorem poll_served (endpoint : Endpoint) (timeoutSeconds : Nat) {request last : Nat}
    (served : timeline.Served requests deadline request last)
    {polls : Nat} (enough : last - request < polls) (lastError : String) (probes : List Probe) :
    (pollEndpoint requests endpoint timeoutSeconds deadline polls lastError).execute timeline.reply
        (position request probes) =
      (.returned (), position (last + 1)
        (probes ++ timeline.asked endpoint.url.server request (last + 1 - request))) := by
  induction served generalizing polls lastError probes with
  | @here request before succeeds =>
    obtain ⟨polls, rfl⟩ := Nat.exists_eq_add_one_of_ne_zero (Nat.ne_zero_of_lt enough)
    rw [poll_succeeds before succeeds, Nat.add_sub_cancel_left]
    rfl
  | @later request last before fails rest ih =>
    obtain ⟨polls, rfl⟩ := Nat.exists_eq_add_one_of_ne_zero (Nat.ne_zero_of_lt enough)
    obtain ⟨failure, failed⟩ := Option.ne_none_iff_exists'.mp fails
    have later := rest.le
    have count : last + 1 - request = last + 1 - (request + 1) + 1 := by omega
    rw [poll_fails before failed, ih (show last - (request + 1) < polls by omega), count, asked_succ,
      List.append_assoc, List.singleton_append]

theorem poll_expired (endpoint : Endpoint) (timeoutSeconds : Nat) {request last : Nat}
    (expired : timeline.Expired requests deadline request last)
    {polls : Nat} (enough : last - request < polls) (lastError : String) (probes : List Probe) :
    ∃ failure : String,
      (pollEndpoint requests endpoint timeoutSeconds deadline polls lastError).execute timeline.reply
          (position request probes) =
        (.raised (notReady endpoint timeoutSeconds failure), ⟨last + 2, last,
          probes ++ timeline.asked endpoint.url.server request (last - request)⟩) := by
  induction expired generalizing polls lastError probes with
  | @here request late =>
    obtain ⟨polls, rfl⟩ := Nat.exists_eq_add_one_of_ne_zero (Nat.ne_zero_of_lt enough)
    refine ⟨lastError, ?_⟩
    rw [poll_expires late, Nat.sub_self]
    exact congrArg (fun all => (_, Progress.mk _ _ all)) (List.append_nil probes).symm
  | @later request last before fails rest ih =>
    obtain ⟨polls, rfl⟩ := Nat.exists_eq_add_one_of_ne_zero (Nat.ne_zero_of_lt enough)
    obtain ⟨failure, failed⟩ := Option.ne_none_iff_exists'.mp fails
    have later := rest.le
    obtain ⟨failure', ran⟩ := ih (show last - (request + 1) < polls by omega) failure
      (probes ++ [⟨endpoint.url.server, timeline.answers request⟩])
    have count : last - request = last - (request + 1) + 1 := by omega
    refine ⟨failure', ?_⟩
    rw [poll_fails before failed, ran, count, asked_succ, List.append_assoc, List.singleton_append]

-- The loop comes to no end unless the endpoint is served or given up.
theorem poll_ends (requests : Requests) (timeline : Timeline) (endpoint : Endpoint)
    (timeoutSeconds deadline request polls : Nat) (lastError : String) (probes : List Probe) :
    ((pollEndpoint requests endpoint timeoutSeconds deadline polls lastError).execute timeline.reply
        (position request probes)).1 = .stopped ∨
      (∃ last, timeline.Served requests deadline request last ∧ last - request < polls) ∨
        ∃ last, timeline.Expired requests deadline request last ∧ last - request < polls := by
  induction polls generalizing request lastError probes with
  | zero => exact .inl rfl
  | succ polls ih =>
    by_cases before : timeline.Before deadline request
    · cases failed : requests.failureOf (timeline.answers request) with
      | none => exact .inr (.inl ⟨request, .here before failed, by omega⟩)
      | some failure =>
        have fails : ¬ timeline.Succeeds requests request := by
          rw [Timeline.Succeeds, failed]
          exact Option.some_ne_none failure
        rw [poll_fails before failed]
        rcases ih (request + 1) failure _ with stopped | ⟨last, served, bound⟩ | ⟨last, expired, bound⟩
        · exact .inl stopped
        · exact .inr (.inl ⟨last, .later before fails served, by omega⟩)
        · exact .inr (.inr ⟨last, .later before fails expired, by omega⟩)
    · exact .inr (.inr ⟨request, .here before, by omega⟩)

end Polling

section Gate

variable (requests : Requests) (config : ClusterConfig) (jumpAddress : String) (timeoutSeconds : Nat)
  (timeline : Timeline)

def balancerServer : Server :=
  ⟨jumpAddress, config.jump.httpPort⟩

def inventoryServer : Server :=
  ⟨jumpAddress, config.inventory.servicePort⟩

/-- What a call with so many turns of each loop at most comes to. -/
def gate (polls : Nat) : Outcome PyError Unit × Progress :=
  (waitForClusterReady requests polls config jumpAddress timeoutSeconds).execute timeline.reply
    ⟨0, 0, []⟩

def Probe.Fails (requests : Requests) (probe : Probe) : Prop :=
  requests.failureOf probe.exchange ≠ none

/-- A return says that both servers have answered with a status below 400, and a timeout for one of
them that it was probed in vain. -/
structure Truthful (ended : Outcome PyError Unit × Progress) : Prop where
  ready : ended.1 = .returned () →
    ∀ server ∈ [balancerServer config jumpAddress, inventoryServer config jumpAddress],
      ∃ probe ∈ ended.2.probes, probe.Answers server
  balancerProbed : ∀ lastError,
    ended.1 = .raised (notReady (balancerEndpoint jumpAddress) timeoutSeconds lastError) →
      ∃ probe ∈ ended.2.probes,
        probe.Reaches (balancerServer config jumpAddress) ∧ probe.Fails requests
  inventoryProbed : ∀ lastError,
    ended.1 = .raised (notReady (inventoryEndpoint config jumpAddress) timeoutSeconds lastError) →
      ∃ probe ∈ ended.2.probes,
        probe.Reaches (inventoryServer config jumpAddress) ∧ probe.Fails requests

/-- The requests of the first loop go to the first server and those of the second loop to the
second one; where they may be led is up to the redirects. -/
structure Timeline.Shows (deadline : Nat) (first second balancer : Server) : Prop where
  givenUp : ∀ last, timeline.Expired requests deadline 0 last →
    ∃ request < last, (Probe.mk first (timeline.answers request)).Reaches balancer
  givenUpLater : ∀ last final, timeline.Served requests deadline 0 last →
    timeline.Expired requests deadline (last + 1) final → last + 1 < final ∨
      ∃ request < last, (Probe.mk first (timeline.answers request)).Reaches second
  passed : ∀ last final, timeline.Served requests deadline 0 last →
    timeline.Served requests deadline (last + 1) final → ∀ server ∈ [balancer, second],
      (∃ request ≤ last, (Probe.mk first (timeline.answers request)).Answers server) ∨
        ∃ request, last < request ∧ request ≤ final ∧
          (Probe.mk second (timeline.answers request)).Answers server

variable {requests config jumpAddress timeoutSeconds timeline}

theorem notReady_ne (lastError failure : String) :
    notReady (balancerEndpoint jumpAddress) timeoutSeconds lastError ≠
      notReady (inventoryEndpoint config jumpAddress) timeoutSeconds failure := by
  intro same
  have texts := congrArg (List.drop 4 ∘ String.toList) (PyError.provisioningTimeoutError.inj same)
  simp [balancerEndpoint, inventoryEndpoint, toString] at texts

theorem reaches_first (probe : Probe) : probe.Reaches probe.first := by
  obtain ⟨first, ⟨followed, ended, redirects⟩⟩ := probe
  unfold Probe.Reaches Probe.contacts
  cases followed with
  | nil => cases ended <;> exact ⟨_, List.mem_cons_self⟩
  | cons hop rest => exact ⟨_, List.mem_cons_self⟩

theorem gate_eq (polls : Nat) : gate requests config jumpAddress timeoutSeconds timeline polls =
    (pollEndpoints requests polls timeoutSeconds (timeline.clock 0 + 1000 * timeoutSeconds)
      [balancerEndpoint jumpAddress, inventoryEndpoint config jumpAddress]).execute timeline.reply
        (position 0 []) :=
  rfl

variable (config jumpAddress) in
theorem gate_expired {last polls : Nat}
    (expired : timeline.Expired requests (timeline.clock 0 + 1000 * timeoutSeconds) 0 last)
    (enough : last < polls) :
    ∃ failure : String,
      gate requests config jumpAddress timeoutSeconds timeline polls =
        (.raised (notReady (balancerEndpoint jumpAddress) timeoutSeconds failure),
          ⟨last + 2, last, timeline.asked ⟨jumpAddress, 80⟩ 0 last⟩) := by
  obtain ⟨failure, ran⟩ :=
    poll_expired (balancerEndpoint jumpAddress) timeoutSeconds expired enough
      "no attempt completed" []
  refine ⟨failure, ?_⟩
  rw [gate_eq]
  exact execute_bind_raised ran

variable (config jumpAddress) in
theorem gate_reaches {last polls : Nat}
    (served : timeline.Served requests (timeline.clock 0 + 1000 * timeoutSeconds) 0 last)
    (enough : last < polls) :
    gate requests config jumpAddress timeoutSeconds timeline polls =
      (pollEndpoints requests polls timeoutSeconds (timeline.clock 0 + 1000 * timeoutSeconds)
        [inventoryEndpoint config jumpAddress]).execute timeline.reply
          (position (last + 1) (timeline.asked ⟨jumpAddress, 80⟩ 0 (last + 1))) := by
  rw [gate_eq]
  exact execute_bind (poll_served (balancerEndpoint jumpAddress) timeoutSeconds served enough
    "no attempt completed" [])

variable (config jumpAddress) in
theorem gate_second_expired {last final polls : Nat}
    (served : timeline.Served requests (timeline.clock 0 + 1000 * timeoutSeconds) 0 last)
    (expired : timeline.Expired requests (timeline.clock 0 + 1000 * timeoutSeconds) (last + 1) final)
    (reached : last < polls) (enough : final - (last + 1) < polls) :
    ∃ failure : String,
      gate requests config jumpAddress timeoutSeconds timeline polls =
        (.raised (notReady (inventoryEndpoint config jumpAddress) timeoutSeconds failure),
          ⟨final + 2, final, timeline.asked ⟨jumpAddress, 80⟩ 0 (last + 1) ++
            timeline.asked (inventoryServer config jumpAddress) (last + 1) (final - (last + 1))⟩) := by
  obtain ⟨failure, ran⟩ :=
    poll_expired (inventoryEndpoint config jumpAddress) timeoutSeconds expired enough
      "no attempt completed" (timeline.asked ⟨jumpAddress, 80⟩ 0 (last + 1))
  refine ⟨failure, ?_⟩
  rw [gate_reaches config jumpAddress served reached]
  exact execute_bind_raised ran

variable (config jumpAddress) in
theorem gate_served {last final polls : Nat}
    (served : timeline.Served requests (timeline.clock 0 + 1000 * timeoutSeconds) 0 last)
    (again : timeline.Served requests (timeline.clock 0 + 1000 * timeoutSeconds) (last + 1) final)
    (reached : last < polls) (enough : final - (last + 1) < polls) :
    gate requests config jumpAddress timeoutSeconds timeline polls =
      (.returned (), position (final + 1) (timeline.asked ⟨jumpAddress, 80⟩ 0 (last + 1) ++
        timeline.asked (inventoryServer config jumpAddress) (last + 1) (final + 1 - (last + 1)))) := by
  rw [gate_reaches config jumpAddress served reached]
  exact execute_bind (poll_served (inventoryEndpoint config jumpAddress) timeoutSeconds again enough
    "no attempt completed" _)

-- These are all the ways to come to an end.
theorem gate_ends (polls : Nat) :
    (gate requests config jumpAddress timeoutSeconds timeline polls).1 = .stopped ∨
      (∃ last, timeline.Expired requests (timeline.clock 0 + 1000 * timeoutSeconds) 0 last ∧
        last < polls) ∨
      ∃ last, timeline.Served requests (timeline.clock 0 + 1000 * timeoutSeconds) 0 last ∧
        last < polls ∧ ∃ final, final - (last + 1) < polls ∧
          (timeline.Expired requests (timeline.clock 0 + 1000 * timeoutSeconds) (last + 1) final ∨
            timeline.Served requests (timeline.clock 0 + 1000 * timeoutSeconds) (last + 1) final) := by
  rcases poll_ends requests timeline (balancerEndpoint jumpAddress) timeoutSeconds
      (timeline.clock 0 + 1000 * timeoutSeconds) 0 polls "no attempt completed" [] with
    stopped | ⟨last, served, reached⟩ | ⟨last, expired, enough⟩
  · rw [gate_eq]
    exact .inl (execute_bind_stopped stopped)
  · rcases poll_ends requests timeline (inventoryEndpoint config jumpAddress) timeoutSeconds
        (timeline.clock 0 + 1000 * timeoutSeconds) (last + 1) polls "no attempt completed"
        (timeline.asked ⟨jumpAddress, 80⟩ 0 (last + 1)) with
      stopped | ⟨final, again, enough⟩ | ⟨final, expired, enough⟩
    · rw [gate_reaches config jumpAddress served reached]
      exact .inl (execute_bind_stopped stopped)
    · exact .inr (.inr ⟨last, served, reached, final, enough, .inr again⟩)
    · exact .inr (.inr ⟨last, served, reached, final, enough, .inl expired⟩)
  · exact .inr (.inl ⟨last, expired, enough⟩)

theorem truthful_stopped {ended : Outcome PyError Unit × Progress} (stopped : ended.1 = .stopped) :
    Truthful requests config jumpAddress timeoutSeconds ended := by
  constructor <;> simp [stopped]

theorem truthful_expired {last polls : Nat}
    (expired : timeline.Expired requests (timeline.clock 0 + 1000 * timeoutSeconds) 0 last)
    (enough : last < polls) :
    Truthful requests config jumpAddress timeoutSeconds
        (gate requests config jumpAddress timeoutSeconds timeline polls) ↔
      ∃ request < last, (Probe.mk ⟨jumpAddress, 80⟩ (timeline.answers request)).Reaches
        (balancerServer config jumpAddress) := by
  obtain ⟨failure, ran⟩ := gate_expired config jumpAddress expired enough
  rw [ran]
  constructor
  · intro truthful
    obtain ⟨probe, member, reaches, -⟩ := truthful.balancerProbed failure rfl
    obtain ⟨request, low, high, rfl⟩ := mem_asked.mp member
    exact ⟨request, by omega, reaches⟩
  · rintro ⟨request, early, reaches⟩
    constructor
    · intro same
      cases same
    · intro _ _
      exact ⟨_, asked_between (Nat.zero_le request) (by omega), reaches,
        expired.fails request (Nat.zero_le request) early⟩
    · intro lastError same
      exact absurd (Outcome.raised.inj same) (notReady_ne _ _)

theorem truthful_second_expired {last final polls : Nat}
    (served : timeline.Served requests (timeline.clock 0 + 1000 * timeoutSeconds) 0 last)
    (expired : timeline.Expired requests (timeline.clock 0 + 1000 * timeoutSeconds) (last + 1) final)
    (reached : last < polls) (enough : final - (last + 1) < polls) :
    Truthful requests config jumpAddress timeoutSeconds
        (gate requests config jumpAddress timeoutSeconds timeline polls) ↔
      last + 1 < final ∨
        ∃ request < last, (Probe.mk ⟨jumpAddress, 80⟩ (timeline.answers request)).Reaches
          (inventoryServer config jumpAddress) := by
  obtain ⟨failure, ran⟩ := gate_second_expired config jumpAddress served expired reached enough
  rw [ran]
  constructor
  · intro truthful
    obtain ⟨probe, member, reaches, fails⟩ := truthful.inventoryProbed failure rfl
    rcases List.mem_append.mp member with first | second
    · obtain ⟨request, low, high, rfl⟩ := mem_asked.mp first
      have unsuccessful : request ≠ last := by
        rintro rfl
        exact fails served.succeeds
      exact .inr ⟨request, by omega, reaches⟩
    · obtain ⟨request, low, high, rfl⟩ := mem_asked.mp second
      exact .inl (by omega)
  · intro probed
    constructor
    · intro same
      cases same
    · intro lastError same
      exact absurd (Outcome.raised.inj same).symm (notReady_ne _ _)
    · intro _ _
      rcases probed with later | ⟨request, early, reaches⟩
      · exact ⟨_, List.mem_append_right _ (asked_between le_rfl (by omega)), reaches_first _,
          expired.fails (last + 1) le_rfl later⟩
      · exact ⟨_, List.mem_append_left _ (asked_between (Nat.zero_le request) (by omega)), reaches,
          served.fails request (Nat.zero_le request) early⟩

theorem truthful_served {last final polls : Nat}
    (served : timeline.Served requests (timeline.clock 0 + 1000 * timeoutSeconds) 0 last)
    (again : timeline.Served requests (timeline.clock 0 + 1000 * timeoutSeconds) (last + 1) final)
    (reached : last < polls) (enough : final - (last + 1) < polls) :
    Truthful requests config jumpAddress timeoutSeconds
        (gate requests config jumpAddress timeoutSeconds timeline polls) ↔
      ∀ server ∈ [balancerServer config jumpAddress, inventoryServer config jumpAddress],
        (∃ request ≤ last, (Probe.mk ⟨jumpAddress, 80⟩ (timeline.answers request)).Answers server) ∨
          ∃ request, last < request ∧ request ≤ final ∧
            (Probe.mk (inventoryServer config jumpAddress) (timeline.answers request)).Answers
              server := by
  rw [gate_served config jumpAddress served again reached enough]
  constructor
  · intro truthful server wanted
    obtain ⟨probe, member, answers⟩ := truthful.ready rfl server wanted
    rcases List.mem_append.mp member with first | second
    · obtain ⟨request, low, high, rfl⟩ := mem_asked.mp first
      exact .inl ⟨request, by omega, answers⟩
    · obtain ⟨request, low, high, rfl⟩ := mem_asked.mp second
      exact .inr ⟨request, by omega, by omega, answers⟩
  · intro answered
    constructor
    · intro _ server wanted
      rcases answered server wanted with ⟨request, early, answers⟩ | ⟨request, low, high, answers⟩
      · exact ⟨_, List.mem_append_left _ (asked_between (Nat.zero_le request) (by omega)), answers⟩
      · exact ⟨_, List.mem_append_right _ (asked_between low (by omega)), answers⟩
    · intro lastError same
      cases same
    · intro lastError same
      cases same

end Gate

section Direct

/-- The server asked is the only one, and a status is one of HTTP. -/
def Exchange.Direct (exchange : Exchange) : Prop :=
  exchange.followed = [] ∧ ∀ status, exchange.ended = .response status → status < 600

variable (requests : Requests) (timeline : Timeline)

/-- The first reading for each endpoint that is reached is before the deadline. -/
def Timeline.Prompt (deadline : Nat) : Prop :=
  timeline.Before deadline 0 ∧
    ∀ last, timeline.Served requests deadline 0 last → timeline.Before deadline (last + 1)

/-- The first endpoint is not given up, and when it is served the second one is not. -/
def Timeline.Undecided (deadline : Nat) : Prop :=
  (∀ last, ¬ timeline.Expired requests deadline 0 last) ∧
    ∀ last, timeline.Served requests deadline 0 last →
      ∀ final, ¬ timeline.Served requests deadline (last + 1) final

variable {requests timeline}

theorem contacts_direct {probe : Probe} (direct : probe.exchange.Direct) {server : Server}
    {answered : Option Nat} (contact : (server, answered) ∈ probe.contacts) :
    server = probe.first := by
  unfold Probe.contacts at contact
  rw [direct.1] at contact
  cases ended : probe.exchange.ended <;> rw [ended] at contact <;>
    exact congrArg Prod.fst (List.mem_singleton.mp contact)

-- A request without redirects that shows its endpoint to be ready was answered below 400.
theorem answers_direct {probe : Probe} (direct : probe.exchange.Direct)
    (succeeds : requests.failureOf probe.exchange = none) : probe.Answers probe.first := by
  unfold Requests.failureOf at succeeds
  unfold Probe.Answers Probe.contacts
  rw [direct.1]
  cases ended : probe.exchange.ended with
  | response status =>
    refine ⟨status, List.mem_singleton_self _, ?_⟩
    rw [ended] at succeeds
    by_contra high
    have refused := requests.errors status (by omega) (direct.2 status ended)
    simp [refused] at succeeds
  | exception answered text =>
    rw [ended] at succeeds
    cases succeeds

-- Between different ports and without redirects, all depends on the first readings and on port
-- 80, unless what port 80 answers decides nothing.
theorem shows_direct_iff {host : String} {service balancer deadline : Nat}
    (direct : ∀ request, (timeline.answers request).Direct) (apart : service ≠ balancer)
    (notHttp : service ≠ 80) :
    timeline.Shows requests deadline ⟨host, 80⟩ ⟨host, service⟩ ⟨host, balancer⟩ ↔
      timeline.Prompt requests deadline ∧
        (balancer = 80 ∨ timeline.Undecided requests deadline) := by
  have reached : ∀ {request port} {server : Server},
      (Probe.mk ⟨host, port⟩ (timeline.answers request)).Reaches server →
        server = ⟨host, port⟩ :=
    fun ⟨_, contact⟩ => contacts_direct (direct _) contact
  have answered : ∀ {request port} {server : Server},
      (Probe.mk ⟨host, port⟩ (timeline.answers request)).Answers server →
        server = ⟨host, port⟩ :=
    fun ⟨_, contact, _⟩ => contacts_direct (direct _) contact
  constructor
  · intro shows
    refine ⟨⟨?_, ?_⟩, ?_⟩
    · by_contra late
      obtain ⟨request, early, -⟩ := shows.givenUp 0 (.here late)
      omega
    · intro last served
      by_contra late
      rcases shows.givenUpLater last (last + 1) served (.here late) with
        later | ⟨request, early, reaches⟩
      · omega
      · exact notHttp (Server.mk.inj (reached reaches)).2
    · by_contra other
      obtain ⟨port, decided⟩ := not_or.mp other
      refine decided ⟨?_, ?_⟩
      · intro last expired
        obtain ⟨request, early, reaches⟩ := shows.givenUp last expired
        exact port (Server.mk.inj (reached reaches)).2
      · intro last served final again
        rcases shows.passed last final served again _ List.mem_cons_self with
          ⟨request, early, answers⟩ | ⟨request, low, high, answers⟩
        · exact port (Server.mk.inj (answered answers)).2
        · exact apart (Server.mk.inj (answered answers)).2.symm
  · rintro ⟨⟨first, prompt⟩, port⟩
    constructor
    · intro last expired
      have moved : balancer = 80 := port.resolve_right fun undecided => undecided.1 last expired
      have some : last ≠ 0 := fun none => (expired.at_once_iff.mp none) first
      subst moved
      exact ⟨0, Nat.pos_of_ne_zero some, reaches_first _⟩
    · intro last final served expired
      have some : final ≠ last + 1 := fun none => (expired.at_once_iff.mp none) (prompt last served)
      exact .inl (lt_of_le_of_ne expired.le some.symm)
    · intro last final served again server wanted
      have moved : balancer = 80 :=
        port.resolve_right fun undecided => undecided.2 last served final again
      subst moved
      rcases List.mem_cons.mp wanted with rfl | wanted
      · exact .inl ⟨last, le_rfl, answers_direct (direct last) served.succeeds⟩
      · obtain rfl := List.mem_singleton.mp wanted
        exact .inr ⟨final, again.le, le_rfl, answers_direct (direct final) again.succeeds⟩

end Direct

def movedBalancer : ClusterConfig :=
  let cluster := Config.exampleCluster "apjump" Config.exampleNodes
  { cluster with jump := { cluster.jump with httpPort := 8088 } }

/-- `Response.ok` as it is: `raise_for_status` has nothing to say of statuses from 600 on. -/
def statusOk : Requests where
  ok status := decide (status < 400 ∨ 600 ≤ status)
  below status low := decide_eq_true (.inl low)
  errors status low high := decide_eq_false (by omega)

def alwaysOk : Timeline :=
  ⟨fun _ => 0, fun _ => ⟨[], .response 200, by simp⟩⟩

end VmDeploy.Provision
