import Fieldbus.Cloud.Http
import Fieldbus.Cloud.Ingest
import Fieldbus.Library.Machine

/-!
# The metrics balance

Each way through `handle` updates the counters on its own. `handle_counts` says that all of them
come to one update, `Metrics.count`, by the number of readings stored and the error answered with;
`metrics_balance` follows for every sequence of requests.
-/

namespace Fieldbus.Cloud

open Text

/-- One connection, and what its request meets outside the process. -/
structure Request where
  env : Surroundings
  stream : Stream

/-- The status line is one of the two classes of errors. -/
def isErrorStatus (status : String) : Bool :=
  status.toList.head? == some '4' || status.toList.head? == some '5'

variable (c : Crates) (j : JsonTexts) (settings : Settings)

/-- Handle a request and answer it. -/
def answer (state : Server × Metrics) (request : Request) : (Server × Metrics) × Response :=
  let (s, m, response) := handle c j request.env settings request.stream state.1 state.2
  ((s, m), response)

/-- The process after some requests, since its metrics were fresh. -/
def afterRequests (s : Server) (requests : List Request) : Server × Metrics :=
  Machine.final (answer c j settings) (s, .initial) requests

/-- All writes of a request succeed. -/
def Surroundings.WritesSucceed (env : Surroundings) : Prop := ∀ k, env.write k = .complete

namespace Metrics

/-- The refusals under all reasons. -/
def rejected (m : Metrics) : UInt64 :=
  m.rejectedInvalid + m.rejectedUnauthorized + m.rejectedConflict + m.rejectedNotFound +
    m.rejectedIo

/-- Every request has a duration and every failure a reason. -/
structure Balanced (m : Metrics) : Prop where
  durations : m.requests = m.durationCount
  reasons : m.failures = m.rejected

/-- Count readings that were stored. -/
def accept (m : Metrics) (n : Nat) : Metrics :=
  { m with accepted := m.accepted + UInt64.ofNat n }

/-- Count a failure under its reason. -/
def fail (m : Metrics) (e : Error) : Metrics := { m with failures := m.failures + 1 }.reject e

/-- Count a request by the readings it stored and the error it was answered with. -/
def count (m : Metrics) (env : Surroundings) (n : Nat) (outcome : Option Error) : Metrics :=
  outcome.elim id (fun e m => m.fail e)
    ({ m with requests := m.requests + 1 }.accept n |>.observe env)

end Metrics

theorem answer_metrics (state : Server × Metrics) (request : Request) :
    (answer c j settings state request).1.2 =
      (handle c j request.env settings request.stream state.1 state.2).2.1 := rfl

theorem answer_server (state : Server × Metrics) (request : Request) :
    (answer c j settings state request).1.1 =
      (handle c j request.env settings request.stream state.1 state.2).1 := rfl

theorem answer_response (state : Server × Metrics) (request : Request) :
    (answer c j settings state request).2 =
      (handle c j request.env settings request.stream state.1 state.2).2.2 := rfl

theorem afterRequests_singleton (s : Server) (request : Request) :
    afterRequests c j settings s [request] = (answer c j settings (s, .initial) request).1 := rfl

variable {c j settings} {env : Surroundings} {s s' s'' : Store} {m : Metrics} {n n' : Nat}

/-! ## Metrics -/

namespace Metrics

@[simp] theorem accept_zero (m : Metrics) : m.accept 0 = m := by
  simp [accept]

@[simp] theorem fail_requests (m : Metrics) (e : Error) : (m.fail e).requests = m.requests := by
  cases e <;> rfl

@[simp] theorem fail_durationCount (m : Metrics) (e : Error) :
    (m.fail e).durationCount = m.durationCount := by
  cases e <;> rfl

@[simp] theorem fail_accepted (m : Metrics) (e : Error) : (m.fail e).accepted = m.accepted := by
  cases e <;> rfl

@[simp] theorem fail_failures (m : Metrics) (e : Error) :
    (m.fail e).failures = m.failures + 1 := by
  cases e <;> rfl

/-- A failure is counted under exactly one reason. -/
@[simp] theorem fail_rejected (m : Metrics) (e : Error) : (m.fail e).rejected = m.rejected + 1 := by
  cases e <;> simp only [fail, reject, rejected] <;> ac_rfl

theorem Balanced.fail (h : m.Balanced) (e : Error) : (m.fail e).Balanced where
  durations := by rw [fail_requests, fail_durationCount, h.durations]
  reasons := by rw [fail_failures, fail_rejected, h.reasons]

theorem balanced_initial : initial.Balanced := ⟨rfl, rfl⟩

/-- Counting a request keeps the balance. -/
theorem Balanced.count (h : m.Balanced) (env : Surroundings) (n : Nat) (outcome : Option Error) :
    (m.count env n outcome).Balanced := by
  have hobserved : ({ m with requests := m.requests + 1 }.accept n |>.observe env).Balanced :=
    ⟨congrArg (· + 1) h.durations, h.reasons⟩
  cases outcome with
  | none => exact hobserved
  | some e => exact hobserved.fail e

theorem count_failures (m : Metrics) (env : Surroundings) (n : Nat) (outcome : Option Error) :
    (m.count env n outcome).failures = m.failures + if outcome.isSome then 1 else 0 := by
  cases outcome with
  | none => simp [count, accept, observe]
  | some e => simp [count, accept, observe]

theorem count_accepted (m : Metrics) (env : Surroundings) (n : Nat) (outcome : Option Error) :
    (m.count env n outcome).accepted = m.accepted + UInt64.ofNat n := by
  cases outcome with
  | none => rfl
  | some e => simp [count, accept, observe]

end Metrics

/-! ## Stored readings -/

/-- The store has grown by this many readings, and is within its bound if there are any. -/
structure Grown (s s' : Store) (n : Nat) : Prop where
  count : s'.readingCount = s.readingCount + n
  bound : 0 < n → s'.readingCount ≤ maxStoredReadings

theorem Grown.of_readings (h : s'.readings = s.readings) : Grown s s' 0 where
  count := congrArg NestedMap.count h
  bound := by simp

theorem Grown.trans (h : Grown s s' n) (h' : Grown s' s'' n') : Grown s s'' (n + n') where
  count := by rw [h'.count, h.count, Nat.add_assoc]
  bound := by
    intro hpos
    by_cases hn : 0 < n'
    · exact h'.bound hn
    · have hcount := h'.count
      have hbound := h.bound (by omega)
      omega

theorem Grown.le (h : Grown s s' n) : n ≤ maxStoredReadings := by
  have hcount := h.count
  have hbound := h.bound
  omega

namespace Server

variable {w : Nat → Write} {s s' : Server}

/-- Events that are no readings leave the readings alone. -/
theorem commit_readings {planned : List Event}
    (h : ∀ event ∈ planned, ∀ store : Store, (store.apply event).readings = store.readings)
    (s : Server) (index : Nat) :
    (commit c w s planned index).1.store.readings = s.store.readings := by
  obtain ⟨done, rest, rfl, hstore, -⟩ := commit_prefix (c := c) (w := w) planned s index
  rw [hstore]
  refine List.foldlRecOn (motive := fun store : Store => store.readings = s.store.readings) done
    Store.apply rfl fun store hstore event hevent => ?_
  rw [h event (List.mem_append_left rest hevent), hstore]

/-- Calls that neither store readings nor restart the process leave the readings alone. -/
theorem perform_readings (call : Call) {reply : Except Error Unit}
    (hingest : ∀ batch receivedMs, call ≠ .ingest batch receivedMs) (hreopen : call ≠ .reopen)
    (h : s.perform c call w = some (s', reply)) : s'.store.readings = s.store.readings := by
  rw [perform_eq hreopen] at h
  cases hplan : s.store.plan c call with
  | error e =>
      rw [hplan] at h
      obtain ⟨rfl, -⟩ := Prod.mk.inj (Option.some.inj h)
      rfl
  | ok planned =>
      rw [hplan] at h
      have hstate : (commit c w s planned 0).1 = s' :=
        congrArg Prod.fst (Option.some.inj h)
      rw [← hstate]
      refine commit_readings (fun event hevent store => ?_) s 0
      cases Store.plan_ok hplan with
      | register | rotateCredential | publishFirmware | publishConfig =>
          obtain rfl := List.mem_singleton.mp hevent
          rfl
      | ingest => exact absurd rfl (hingest _ _)
      | reopen => exact absurd rfl hreopen

/-- Ingest reports by how much the store has grown. -/
theorem ingest_grown (ht : c.Total) (s : Server) (batch : List Envelope) (receivedMs : Int64) :
    (∃ e, s.ingest c batch receivedMs (fun _ => .complete) = (s, .error e)) ∨
      ∃ s' n, s.ingest c batch receivedMs (fun _ => .complete) = (s', .ok n) ∧
        Grown s.store s'.store n := by
  by_cases h : s.store.Acceptable c batch
  · obtain ⟨added, log, hreviewed, hingest⟩ := ingest_of_acceptable ht h receivedMs
    have hcount := Store.count_accept_all receivedMs hreviewed.nodup hreviewed.new
    refine .inr ⟨_, _, hingest, hcount, fun _ => ?_⟩
    show (s.store.acceptAll receivedMs added).readingCount ≤ maxStoredReadings
    rw [hcount, hreviewed.length_eq]
    exact h.capacity
  · exact .inl (ingest_of_not_acceptable h receivedMs _)

end Server

/-! ## Requests -/

/-- What a route comes to: it counts the readings by which the store has grown, and its status is
one of success unless it gives an error. -/
structure Routed (c : Crates) (env : Surroundings) (s : Server) (m : Metrics)
    (r : Server × Metrics × Except Error (String × String)) : Prop where
  counted : ∃ n, r.2.1 = m.accept n ∧
    (c.Total → env.WritesSucceed → Grown s.store r.1.store n)
  status : ∀ code text, r.2.2 = .ok (code, text) → code = "200 OK" ∨ code = "201 Created"

variable {s s' : Server}

/-- A route that stores no readings. -/
theorem Routed.of_readings {reply : Except Error (String × String)}
    (hreadings : s'.store.readings = s.store.readings)
    (hstatus : ∀ code text, reply = .ok (code, text) → code = "200 OK" ∨ code = "201 Created") :
    Routed c env s m (s', m, reply) where
  counted := ⟨0, (Metrics.accept_zero m).symm, fun _ _ => .of_readings hreadings⟩
  status := hstatus

theorem Routed.refused (e : Error) : Routed c env s m (s, m, .error e) :=
  .of_readings rfl (by simp)

theorem Routed.shown (text : String) : Routed c env s m (s, m, .ok ("200 OK", text)) := by
  refine .of_readings rfl fun code text' h => ?_
  obtain ⟨rfl, -⟩ := Prod.mk.inj (Except.ok.inj h)
  exact .inl rfl

/-- A call that stores no readings, with its status of success. -/
theorem Routed.called {α : Type} {code : String} (hcode : code = "200 OK" ∨ code = "201 Created")
    (hreadings : s'.store.readings = s.store.readings) (reply : Except Error α) (f : α → String) :
    Routed c env s m (s', m, reply.map fun a => (code, f a)) := by
  refine .of_readings hreadings fun code' text h => ?_
  cases reply with
  | error e => simp [Except.map] at h
  | ok a =>
      obtain ⟨rfl, -⟩ := Prod.mk.inj (Except.ok.inj h)
      exact hcode

/-- The route of a batch counts what ingest reports. -/
theorem Routed.ingest {n : Nat} (text : String) (batch : List Envelope)
    (h : s.ingest c batch env.now env.write = (s', .ok n)) :
    Routed c env s m (s', m.accept n, .ok ("200 OK", text)) where
  counted := by
    refine ⟨n, rfl, fun ht hwrites => ?_⟩
    rw [show env.write = fun _ => .complete from funext hwrites] at h
    obtain ⟨e, herror⟩ | ⟨s'', n', hok, hgrown⟩ := Server.ingest_grown ht s batch env.now
    · rw [herror] at h
      cases (Prod.mk.inj h).2
    · rw [hok] at h
      obtain ⟨rfl, hreply⟩ := Prod.mk.inj h
      obtain rfl := Except.ok.inj hreply
      exact hgrown
  status := by
    intro code text' h
    obtain ⟨rfl, -⟩ := Prod.mk.inj (Except.ok.inj h)
    exact .inl rfl

/-- A batch that is refused has stored nothing, unless a write failed. -/
theorem Routed.ingest_refused {e : Error} (batch : List Envelope)
    (h : s.ingest c batch env.now env.write = (s', .error e)) :
    Routed c env s m (s', m, .error e) where
  counted := by
    refine ⟨0, (Metrics.accept_zero m).symm, fun ht hwrites => ?_⟩
    rw [show env.write = fun _ => .complete from funext hwrites] at h
    obtain ⟨e, herror⟩ | ⟨s'', n', hok, -⟩ := Server.ingest_grown ht s batch env.now
    · rw [herror] at h
      obtain ⟨rfl, -⟩ := Prod.mk.inj h
      exact .of_readings rfl
    · rw [hok] at h
      cases (Prod.mk.inj h).2
  status := by simp

variable (c j env) in
/-- Every route counts what it stores. -/
theorem route_counts (method path body : String) (s : Server) (m : Metrics) :
    Routed c env s m (route c j env method path body s m) := by
  unfold route
  split
  · exact .shown _
  · exact .shown _
  · cases j.value body with
    | error e => exact .refused _
    | ok v =>
        have hcall := Server.perform_readings (c := c) (w := env.write) (s := s)
          (.register ((v "device_id").getD "") ((v "secret_hex").getD "")
            ((v "firmware_version").getD "")) (by simp) (by simp) rfl
        exact .called (.inr rfl) hcall _ _
  · cases j.value body with
    | error e => exact .refused _
    | ok v =>
        have hcall := Server.perform_readings (c := c) (w := env.write) (s := s)
          (.rotateCredential ((v "device_id").getD "") ((v "secret_hex").getD "")) (by simp)
          (by simp) rfl
        exact .called (.inl rfl) hcall _ _
  · cases j.envelopes body with
    | error e => exact .refused _
    | ok batch =>
        dsimp only
        split
        · split
          · rename_i hingest
            exact .ingest_refused batch hingest
          · rename_i hingest
            exact .ingest _ batch hingest
        · exact .refused _
  · cases j.firmware body with
    | error e => exact .refused _
    | ok metadata =>
        have hcall := Server.perform_readings (c := c) (w := env.write) (s := s)
          (.publishFirmware metadata) (by simp) (by simp) rfl
        exact .called (.inr rfl) hcall _ _
  · cases j.config body with
    | error e => exact .refused _
    | ok metadata =>
        have hcall := Server.perform_readings (c := c) (w := env.write) (s := s)
          (.publishConfig metadata) (by simp) (by simp) rfl
        exact .called (.inr rfl) hcall _ _
  · split
    · exact .called (.inl rfl) rfl _ _
    · exact .refused _
  · exact .refused _

theorem isErrorStatus_errorStatus (e : Error) : isErrorStatus (errorStatus e) = true := by
  have hinvalid : isErrorStatus "400 Bad Request" = true := by decide
  cases e with
  | io message => exact hinvalid
  | invalid message => exact hinvalid
  | unauthorized => decide
  | notFound => decide
  | conflict => decide

theorem isErrorStatus_success {code : String} (h : code = "200 OK" ∨ code = "201 Created") :
    isErrorStatus code = false := by
  rcases h with rfl | rfl <;> decide

variable (c j settings env) in
/-- Handling a request counts it once, by the readings it stored and the error it was answered
with. -/
theorem handle_counts (stream : Stream) (s : Server) (m : Metrics) :
    ∃ n outcome, (handle c j env settings stream s m).2.1 = m.count env n outcome ∧
      isErrorStatus (handle c j env settings stream s m).2.2.status = outcome.isSome ∧
      (c.Total → env.WritesSucceed →
        Grown s.store (handle c j env settings stream s m).1.store n) := by
  have hsame : c.Total → env.WritesSucceed → Grown s.store s.store 0 := fun _ _ =>
    .of_readings rfl
  -- without a stored reading the counter of stored readings does not move
  have hzero (outcome : Option Error) :
      m.count env 0 outcome = outcome.elim id (fun e m => m.fail e)
        ({ m with requests := m.requests + 1 }.observe env) := by
    rw [Metrics.count, Metrics.accept_zero]
  have hroute {method path body : String} {r : Server × Metrics × Except Error (String × String)}
      (h : route c j env method path body s { m with requests := m.requests + 1 } = r) :
      Routed c env s { m with requests := m.requests + 1 } r :=
    h ▸ route_counts c j env method path body s _
  unfold handle
  dsimp only
  cases readRequest stream with
  | error e =>
      dsimp only
      refine ⟨0, some (.invalid ""), (hzero (some (.invalid ""))).symm, ?_, hsame⟩
      exact isErrorStatus_errorStatus (.invalid "")
  | ok request =>
      dsimp only
      split
      · refine ⟨0, some .unauthorized, (hzero (some .unauthorized)).symm, ?_, hsame⟩
        exact isErrorStatus_errorStatus .unauthorized
      · split
        · exact ⟨0, none, (hzero none).symm, isErrorStatus_success (.inl rfl), hsame⟩
        · split
          · rename_i s' m' code text hreply
            obtain ⟨⟨n, hmetrics, hgrown⟩, hstatus⟩ := hroute hreply
            refine ⟨n, none, ?_, isErrorStatus_success (hstatus code text rfl), hgrown⟩
            exact congrArg (Metrics.observe · env) hmetrics
          · rename_i s' m' e hreply
            obtain ⟨⟨n, hmetrics, hgrown⟩, -⟩ := hroute hreply
            refine ⟨n, some e, ?_, isErrorStatus_errorStatus e, hgrown⟩
            exact congrArg (fun m : Metrics => (m.observe env).fail e) hmetrics

/-- The store has grown by the readings that are counted. -/
def Counted (start : Store) (state : Server × Metrics) : Prop :=
  Grown start state.1.store state.2.accepted.toNat

theorem Counted.answer (ht : c.Total) {start : Store} {state : Server × Metrics}
    {request : Request} (h : Counted start state) (hwrites : request.env.WritesSucceed) :
    Counted start (answer c j settings state request).1 := by
  obtain ⟨n, outcome, hmetrics, -, hgrown⟩ :=
    handle_counts c j settings request.env request.stream state.1 state.2
  have htotal := h.trans (hgrown ht hwrites)
  -- the bound on stored readings keeps the counter from wrapping
  have hsum : (state.2.accepted + UInt64.ofNat n).toNat = state.2.accepted.toNat + n := by
    have hbound : state.2.accepted.toNat + n ≤ 100000 := htotal.le
    rw [UInt64.toNat_add, UInt64.toNat_ofNat_of_lt' (by show n < 2 ^ 64; omega)]
    omega
  rw [Counted, answer_server, answer_metrics, hmetrics, Metrics.count_accepted, hsum]
  exact htotal

/-- Request metrics balance. Whatever the settings and the store, after every sequence of requests
since the metrics were fresh there are as many durations as requests and as many failures as
refusals under the five reasons. The next request counts as a failure exactly if it is answered
with an error status. As long as storage writes succeed, the counter of accepted readings is the
growth of the store. -/
theorem metrics_balance (c : Crates) (j : JsonTexts) (settings : Settings) (s : Server)
    (requests : List Request) :
    let state := afterRequests c j settings s requests
    state.2.Balanced ∧
      (∀ request : Request,
        let next := answer c j settings state request
        next.1.2.failures = state.2.failures + if isErrorStatus next.2.status then 1 else 0) ∧
      (c.Total → (∀ request ∈ requests, request.env.WritesSucceed) →
        state.1.store.readingCount = s.store.readingCount + state.2.accepted.toNat) := by
  intro state
  refine ⟨?_, fun request => ?_, fun ht hwrites => ?_⟩
  · refine Machine.final_invariant (fun state : Server × Metrics => state.2.Balanced)
      (fun state request h => ?_) Metrics.balanced_initial requests
    obtain ⟨n, outcome, hmetrics, -⟩ :=
      handle_counts c j settings request.env request.stream state.1 state.2
    rw [answer_metrics, hmetrics]
    exact h.count request.env n outcome
  · obtain ⟨n, outcome, hmetrics, hstatus, -⟩ :=
      handle_counts c j settings request.env request.stream state.1 state.2
    dsimp only
    rw [answer_metrics, answer_response, hmetrics, Metrics.count_failures, hstatus]
  · have hinitial : Counted s.store (s, .initial) := .of_readings rfl
    exact (List.foldlRecOn (motive := Counted s.store) requests _ hinitial
      fun state h request hrequest => h.answer ht (hwrites request hrequest)).count

variable (env m) in
theorem route_ingest (body : String) {batch : List Envelope} (hbatch : j.envelopes body = .ok batch)
    (hsize : batch.length ≤ maxBatch) (h : s.ingest c batch env.now env.write = (s', .ok n)) :
    route c j env "POST" "/ingest" body s m = (s', m.accept n, .ok ("200 OK", j.accepted n)) := by
  simp only [route, hbatch, hsize, if_true, h]
  rfl

variable (settings m) in
/-- A request that a route answers with success. -/
theorem handle_routed {stream : Stream} {head body method path code text : String} {m' : Metrics}
    (hrequest : readRequest stream = .ok (head, body))
    (hmethod : (splitWhitespace Store.isWhitespace ((lines head.toList).headD []))[0]?.getD [] =
      method.toList)
    (hpath : (splitWhitespace Store.isWhitespace ((lines head.toList).headD []))[1]?.getD [] =
      path.toList)
    (hallowed : (guarded method path && !adminAuthorized c settings head) = false)
    (hscrape : path ≠ "/metrics")
    (hroute : route c j env method path body s { m with requests := m.requests + 1 } =
      (s', m', .ok (code, text))) :
    handle c j env settings stream s m =
      (s', m'.observe env, ⟨code, text, "application/json"⟩) := by
  unfold handle
  simp only [hrequest, hmethod, hpath, String.ofList_toList, hallowed]
  rw [if_neg Bool.false_ne_true, if_neg fun h => hscrape h.2]
  simp only [hroute]

/-- The first reading of a registered device is counted as it is stored. -/
theorem metrics_balance_first_reading :
    let reading : Reading := ⟨"d", "1", 0, 10, 1, ⟨0x3FF0000000000000⟩, "ok"⟩
    let s : Server := ⟨Store.empty.apply (.registered (.initial "d" "00" "1")), []⟩
    let stream : Stream := ⟨Utf8.encode "POST /ingest HTTP/1.1\r\n\r\n", none⟩
    let request : Request := ⟨⟨20, fun _ => .complete, none, ⟨0⟩⟩, stream⟩
    ∃ e, signed .reference "00" reading = .ok e ∧
      let texts : JsonTexts := ⟨fun _ => .error "", fun _ => .ok [e], fun _ => .error "",
        fun _ => .error "", fun _ => "", fun _ => "", fun _ => "", fun _ => "", fun _ => "",
        fun _ => ""⟩
      let state := afterRequests .reference texts ⟨none, none⟩ s [request]
      state.2.accepted = 1 ∧ state.1.store.readingCount = s.store.readingCount + 1 := by
  intro reading s stream request
  obtain ⟨signature, hsigned, hvalid⟩ := Store.signed_registered reference_serializes
    (show unhex "00" = .ok [0] from rfl) "1" (r := reading) (by decide) (by simp [reading])
  refine ⟨⟨protocolVersion, reading, signature⟩, hsigned, ?_⟩
  intro texts state
  obtain ⟨hacceptable, hcard⟩ := Store.acceptable_singleton hvalid
    (NestedMap.find_empty reading.deviceId reading.key) (Nat.le_of_ble_eq_true rfl)
  obtain ⟨added, log, hreviewed, hingest⟩ :=
    Server.ingest_of_acceptable (s := s) reference_total hacceptable 20
  have hlength : added.length = 1 := by rw [hreviewed.length_eq, hcard]
  rw [hlength] at hingest
  have hrequest : readRequest stream = .ok ("POST /ingest HTTP/1.1\r\n\r\n", "") := by
    decide +kernel
  have haccepted : state.2.accepted = 1 := by
    have hroute := route_ingest (j := texts) request.env
      { Metrics.initial with requests := Metrics.initial.requests + 1 } ""
      rfl (Nat.le_of_ble_eq_true rfl) hingest
    have hhandle := handle_routed ⟨none, none⟩ .initial hrequest (by decide) (by decide)
      (by decide) (by decide) hroute
    rw [show state = _ from afterRequests_singleton .reference texts ⟨none, none⟩ s request,
      answer_metrics, hhandle]
    rfl
  obtain ⟨-, -, hgrowth⟩ := metrics_balance .reference texts ⟨none, none⟩ s [request]
  refine ⟨haccepted, ?_⟩
  have hcount := hgrowth reference_total (by simp [request, Surroundings.WritesSucceed])
  rw [haccepted] at hcount
  exact hcount

end Fieldbus.Cloud
