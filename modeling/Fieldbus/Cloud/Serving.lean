import Fieldbus.Cloud.Balance
import Fieldbus.Cloud.Replay

/-!
# The HTTP server as a store

What a connection asks of the store is at most one call (`asks`), read off the request alone.
`handle_serves` says that a connection does that call and nothing else, and is answered with success
exactly if the call was; so a run of the server is a run of the store, and what holds of every run
of the store holds of the server (`serving_refines_store`). `answered_as_done` is the answer's word
for what has happened: an error means that nothing has, and a success that all of it has.
-/

namespace Fieldbus.Cloud

open Text

variable (c : Crates) (j : JsonTexts) (settings : Settings)

/-- The call a route makes. -/
def demanded (env : Surroundings) (method path body : String) : Option Call :=
  match method, path with
  | "POST", "/register" => (j.value body).toOption.map fun v =>
      .register ((v "device_id").getD "") ((v "secret_hex").getD "")
        ((v "firmware_version").getD "")
  | "POST", "/rotate-credential" => (j.value body).toOption.map fun v =>
      .rotateCredential ((v "device_id").getD "") ((v "secret_hex").getD "")
  | "POST", "/ingest" => (j.envelopes body).toOption.bind fun batch =>
      if batch.length ≤ maxBatch then some (.ingest batch env.now) else none
  | "POST", "/firmware" => (j.firmware body).toOption.map .publishFirmware
  | "POST", "/config" => (j.config body).toOption.map .publishConfig
  | _, _ => none

/-- What a connection asks of the store. -/
def asks (request : Request) : Option Call :=
  match readRequest request.stream with
  | .error _ => none
  | .ok (head, body) =>
      let words := splitWhitespace Store.isWhitespace ((lines head.toList).headD [])
      let method := String.ofList (words[0]?.getD [])
      let path := String.ofList (words[1]?.getD [])
      if guarded method path && !adminAuthorized c settings head then none
      else demanded j request.env method path body

/-- What happens to a server process. A restart opens the log and starts counting afresh. -/
inductive Happening where
  | connection (request : Request)
  | restart

/-- What it asks of the store. -/
def Happening.asks : Happening → Option Call
  | .connection request => Cloud.asks c j settings request
  | .restart => some .reopen

/-- One pass of the accept loop, or a restart; a process whose log cannot be opened does not come
up. -/
def Happening.next (state : Server × Metrics) : Happening → Option (Server × Metrics)
  | .connection request => some (answer c j settings state request).1
  | .restart => match Store.open c state.1.log with
      | .ok store => some (⟨store, state.1.log⟩, .initial)
      | .error _ => none

/-- The server after a list of happenings. -/
def serve (state : Server × Metrics) (happenings : List Happening) : Option (Server × Metrics) :=
  happenings.foldlM (Happening.next c j settings) state

/-- What a connection does to the store: nothing if it asks for nothing, and else the call, with
whose success it is answered. -/
inductive Serves (c : Crates) (w : Nat → Write) (s : Server) :
    Option Call → Server → Bool → Prop where
  | idle (succeeded : Bool) : Serves c w s none s succeeded
  | call {call : Call} {s' : Server} {reply : Except Error Unit}
      (h : s.perform c call w = some (s', reply)) : Serves c w s (some call) s' reply.isOk

variable {c j settings}

/-- A map of the reply does not change whether there is one. -/
theorem isOk_map {ε α β : Type} (r : Except ε α) (f : α → β) : (r.map f).isOk = r.isOk := by
  cases r <;> rfl

/-- Only the five routes of the store demand a call. -/
theorem demanded_get (env : Surroundings) (path body : String) :
    demanded j env "GET" path body = none := by
  unfold demanded
  split <;> first | rfl | simp_all

/-! ## Routes -/

/-- A route that makes a call of what the body parses to. -/
def calling {α β : Type} (parsed : Except String α) (s : Server) (m : Metrics)
    (call : α → Server × Except Error β) (shown : β → String × String) :
    Server × Metrics × Except Error (String × String) :=
  match parsed with
  | .error e => (s, m, .error (.invalid e))
  | .ok a => ((call a).1, m, (call a).2.map shown)

section Routes

variable {env : Surroundings} {method path body : String} {s : Server} {m : Metrics}

theorem route_register : route c j env "POST" "/register" body s m =
    calling (j.value body) s m
      (fun v => s.register c ((v "device_id").getD "") ((v "secret_hex").getD "")
        ((v "firmware_version").getD "") (env.write 0))
      fun d => ("201 Created", j.device (publicDevice d)) := by
  rw [route]
  cases j.value body <;> rfl

theorem route_rotate : route c j env "POST" "/rotate-credential" body s m =
    calling (j.value body) s m
      (fun v => s.rotateCredential c ((v "device_id").getD "") ((v "secret_hex").getD "")
        (env.write 0))
      fun d => ("200 OK", j.device (publicDevice d)) := by
  rw [route]
  cases j.value body <;> rfl

theorem route_firmware : route c j env "POST" "/firmware" body s m =
    calling (j.firmware body) s m (fun metadata => s.publishFirmware c metadata (env.write 0))
      fun _ => ("201 Created", "\x7b\x7d") := by
  rw [route]
  cases j.firmware body <;> rfl

theorem route_config : route c j env "POST" "/config" body s m =
    calling (j.config body) s m (fun metadata => s.publishConfig c metadata (env.write 0))
      fun _ => ("201 Created", "\x7b\x7d") := by
  rw [route]
  cases j.config body <;> rfl

/-- Such a route does the call that the body stands for, and succeeds if the call does. -/
theorem serves_calling {α β : Type} {w : Nat → Write} {parsed : Except String α}
    {demand : α → Call} {call : α → Server × Except Error β} {shown : β → String × String}
    (hcall : ∀ a, s.perform c (demand a) w = some ((call a).1, (call a).2.map fun _ => ())) :
    Serves c w s (parsed.toOption.map demand) (calling parsed s m call shown).1
      (calling parsed s m call shown).2.2.isOk := by
  cases parsed with
  | error e => exact .idle _
  | ok a =>
      simp only [calling, isOk_map]
      rw [← isOk_map _ fun _ => ()]
      exact .call (hcall a)

end Routes

/-- A reply without content is its own map. -/
theorem map_unit {ε : Type} (r : Except ε Unit) : (r.map fun _ => ()) = r := by
  cases r <;> rfl

/-- A route does what it demands. -/
theorem route_serves (env : Surroundings) (method path body : String) (s : Server) (m : Metrics) :
    Serves c env.write s (demanded j env method path body)
      (route c j env method path body s m).1 (route c j env method path body s m).2.2.isOk := by
  unfold demanded
  split
  · rw [route_register]
    exact serves_calling fun _ => rfl
  · rw [route_rotate]
    exact serves_calling fun _ => rfl
  · rw [route]
    cases j.envelopes body with
    | error e => exact .idle _
    | ok batch =>
        dsimp only [Except.toOption, Option.bind_some]
        split
        · have hperform : s.perform c (.ingest batch env.now) env.write =
              some ((s.ingest c batch env.now env.write).1,
                (s.ingest c batch env.now env.write).2.map fun _ => ()) := rfl
          rcases hingest : s.ingest c batch env.now env.write with ⟨s', e | n⟩ <;>
            · rw [hingest] at hperform
              exact .call hperform
        · exact .idle _
  · rw [route_firmware]
    exact serves_calling fun metadata => by rw [map_unit]; rfl
  · rw [route_config]
    exact serves_calling fun metadata => by rw [map_unit]; rfl
  · -- the other routes show something of the store, or nothing
    unfold route
    split <;> first | exact .idle _ | (split <;> exact .idle _) | simp_all

variable (c j settings) in
/-- A connection does what it asks for, and its status says whether that succeeded. -/
theorem handle_serves (state : Server × Metrics) (request : Request) :
    Serves c request.env.write state.1 (asks c j settings request)
      (answer c j settings state request).1.1
      (!isErrorStatus (answer c j settings state request).2.status) := by
  rw [answer_server, answer_response]
  unfold handle asks
  cases readRequest request.stream with
  | error e => exact .idle _
  | ok read =>
      obtain ⟨head, body⟩ := read
      dsimp only
      generalize splitWhitespace Store.isWhitespace ((lines head.toList).headD []) = words
      generalize String.ofList (words[0]?.getD []) = method
      generalize String.ofList (words[1]?.getD []) = path
      split
      · exact .idle _
      · split
        · rename_i hscrape
          rw [hscrape.1, demanded_get]
          exact .idle _
        · have hroute := route_serves (c := c) (j := j) request.env method path body state.1
            { state.2 with requests := state.2.requests + 1 }
          have hcode := (route_counts c j request.env method path body state.1
            { state.2 with requests := state.2.requests + 1 }).status
          split <;> rename_i heq <;> rw [heq] at hroute hcode
          · dsimp only
            rw [isErrorStatus_success (hcode _ _ rfl)]
            exact hroute
          · dsimp only
            rw [isErrorStatus_errorStatus]
            exact hroute

/-! ## A registration over HTTP -/

def registrationHead : String := "POST /register HTTP/1.1\r\nContent-Length: 58\r\n\r\n"

def registrationBody : String :=
  "\x7b\"device_id\":\"d\",\"secret_hex\":\"00\",\"firmware_version\":\"1\"\x7d"

def registering : Request where
  env := ⟨20, fun _ => .complete, none, ⟨0⟩⟩
  stream := ⟨Utf8.encode registrationHead ++ Utf8.encode registrationBody, none⟩

theorem read_registering :
    readRequest registering.stream = .ok (registrationHead, registrationBody) := by
  decide +kernel

/-- The JSON texts of a registration, and of no other body. -/
def registrationTexts : JsonTexts where
  value body :=
    if body = registrationBody then
      .ok fun field => [("device_id", "d"), ("secret_hex", "00"), ("firmware_version", "1")].lookup
        field
    else .error "expected value at line 1 column 1"
  envelopes _ := .error "expected value at line 1 column 1"
  firmware _ := .error "expected value at line 1 column 1"
  config _ := .error "expected value at line 1 column 1"
  health _ := ""
  dashboard _ := ""
  device d := "\x7b\"device_id\":\"" ++ d.deviceId ++ "\"\x7d"
  accepted _ := ""
  error _ := ""
  f64 _ := ""

theorem words_registering :
    splitWhitespace Store.isWhitespace ((lines registrationHead.toList).headD []) =
      ["POST".toList, "/register".toList, "HTTP/1.1".toList] := by
  decide

/-- What the registration asks for. -/
theorem asks_registering : asks .reference registrationTexts ⟨none, some "1"⟩ registering =
    some (.register "d" "00" "1") := by
  unfold asks
  rw [read_registering]
  simp only [words_registering]
  rfl

/-- A registration on an empty store is answered as created. -/
theorem registering_created :
    (answer .reference registrationTexts ⟨none, some "1"⟩ (.fresh, .initial) registering).2.status =
      "201 Created" := by
  have hroute : route .reference registrationTexts registering.env "POST" "/register"
      registrationBody .fresh { Metrics.initial with requests := Metrics.initial.requests + 1 } =
        (_, _, .ok ("201 Created", _)) := rfl
  rw [answer_response, handle_routed ⟨none, some "1"⟩ .initial read_registering
    (by rw [words_registering]; rfl) (by rw [words_registering]; rfl) rfl (by decide) hroute]

/-! ## Whole runs -/

/-- All writes of a connection succeed. -/
def Happening.WritesSucceed : Happening → Prop
  | .connection request => request.env.WritesSucceed
  | .restart => True

variable {reread : F64 → F64}

variable (settings) in
/-- One happening with successful writes is one step of a run of the store, and leaves a log that
replays to the maps. -/
theorem next_serves (hc : c.Rereads reread) {state : Server × Metrics}
    (h : Recorded c reread state.1) (happening : Happening)
    (hwrites : happening.WritesSucceed) :
    ∃ state', happening.next c j settings state = some state' ∧ Recorded c reread state'.1 ∧
      state.1.run c (happening.asks c j settings).toList = some state'.1 := by
  cases happening with
  | connection request =>
      refine ⟨_, rfl, ?_⟩
      have hserves := handle_serves c j settings state request
      rw [show request.env.write = fun _ => .complete from funext hwrites] at hserves
      rw [Happening.asks]
      generalize asks c j settings request = asked at hserves ⊢
      generalize (!isErrorStatus _) = succeeded at hserves
      generalize (answer c j settings state request).1.1 = s' at hserves ⊢
      cases hserves with
      | idle succeeded => exact ⟨h, rfl⟩
      | @call call s' reply hperform =>
          obtain ⟨s'', reply', hperform', hrecorded⟩ := h.perform hc call
          obtain ⟨rfl, rfl⟩ := Prod.mk.inj (Option.some.inj (hperform'.symm.trans hperform))
          refine ⟨hrecorded, ?_⟩
          simp [Server.run, hperform]
  | restart =>
      obtain ⟨t, hopen, -, hrecorded⟩ := h.open hc
      refine ⟨(⟨t, state.1.log⟩, .initial), ?_, hrecorded, ?_⟩
      · simp [Happening.next, hopen]
      · simp [Happening.asks, Server.run, Server.perform, hopen]

variable (settings) in
/-- A run of the server with successful writes is a run of the store. -/
theorem serve_run (hc : c.Rereads reread) {happenings : List Happening}
    (hwrites : ∀ happening ∈ happenings, happening.WritesSucceed) (state : Server × Metrics)
    (h : Recorded c reread state.1) :
    ∃ state', serve c j settings state happenings = some state' ∧ Recorded c reread state'.1 ∧
      state.1.run c (happenings.filterMap (Happening.asks c j settings)) = some state'.1 := by
  induction happenings generalizing state with
  | nil => exact ⟨state, rfl, h, rfl⟩
  | cons happening rest ih =>
      obtain ⟨hfirst, hrest⟩ := List.forall_mem_cons.mp hwrites
      obtain ⟨next, hnext, hrecorded, hrun⟩ := next_serves settings hc h happening hfirst
      obtain ⟨state', hserve, hfinal, hruns⟩ := ih hrest next hrecorded
      refine ⟨state', ?_, hfinal, ?_⟩
      · rw [serve, List.foldlM_cons, hnext]
        exact hserve
      · have hcalls : (happening :: rest).filterMap (Happening.asks c j settings) =
            (happening.asks c j settings).toList ++
              rest.filterMap (Happening.asks c j settings) := by
          cases hasks : happening.asks c j settings with
          | none => rw [List.filterMap_cons_none hasks]; rfl
          | some call => rw [List.filterMap_cons_some hasks]; rfl
        rw [hcalls, Server.run_append, hrun]
        exact hruns

/-- The server refines the store. Whatever arrives on its connections, with restarts anywhere and
storage writes succeeding, the server stays up; its maps and its log are those of the store on
which the calls the connections ask for have been made, in order; and opening the log rebuilds the
maps, but for values of readings that the JSON crate does not read back as they were. -/
theorem serving_refines_store (hc : c.Rereads reread) (j : JsonTexts) (settings : Settings)
    {happenings : List Happening} (hwrites : ∀ happening ∈ happenings, happening.WritesSucceed) :
    ∃ state t, serve c j settings (.fresh, .initial) happenings = some state ∧
      Server.fresh.run c (happenings.filterMap (Happening.asks c j settings)) = some state.1 ∧
      Store.open c state.1.log = .ok t ∧ t.SameButValues state.1.store := by
  obtain ⟨state, hserve, hrecorded, hrun⟩ :=
    serve_run settings hc hwrites (.fresh, .initial) (recorded_fresh reread)
  obtain ⟨t, hopen, hsame, -⟩ := hrecorded.open hc
  exact ⟨state, t, hserve, hrun, hopen, hsame⟩

/-- A registration over HTTP and a restart. -/
theorem serving_refines_store_registered :
    ∃ state t, serve .reference registrationTexts ⟨none, some "1"⟩ (.fresh, .initial)
        [.connection registering, .restart] = some state ∧
      Server.fresh.run .reference [.register "d" "00" "1", .reopen] = some state.1 ∧
      Store.open .reference state.1.log = .ok t ∧
      t.devices["d"]? = some (.initial "d" "00" "1") := by
  have hwrites : ∀ happening ∈ [.connection registering, .restart],
      Happening.WritesSucceed happening := by
    simp [Happening.WritesSucceed, registering, Surroundings.WritesSucceed]
  obtain ⟨state, t, hserve, hrun, hopen, hsame⟩ := serving_refines_store reference_rereads
    registrationTexts ⟨none, some "1"⟩ hwrites
  have hasks : [.connection registering, .restart].filterMap
      (Happening.asks .reference registrationTexts ⟨none, some "1"⟩) =
        [.register "d" "00" "1", .reopen] := by
    simp [Happening.asks, asks_registering]
  rw [hasks] at hrun
  refine ⟨state, t, hserve, hrun, hopen, ?_⟩
  -- the registration is made, and the restart keeps devices
  have hfirst : Server.fresh.run .reference [.register "d" "00" "1"] = some _ :=
    Server.run_register rfl rfl
  rw [show [.register "d" "00" "1", .reopen] = [Call.register "d" "00" "1"] ++ [.reopen] from rfl,
    Server.run_append, hfirst, Option.bind_some] at hrun
  obtain ⟨s, hs, hrecorded⟩ := (recorded_fresh _).run reference_rereads [.register "d" "00" "1"]
  obtain rfl := Option.some.inj (hfirst.symm.trans hs)
  obtain ⟨t', hopen', hsame', -⟩ := hrecorded.open reference_rereads
  simp only [Server.run, List.foldlM_cons, List.foldlM_nil, Server.perform, hopen'] at hrun
  rw [hsame.devices, ← Option.some.inj hrun]
  show t'.devices["d"]? = _
  rw [hsame'.devices]
  simp [Store.apply, DeviceRecord.initial]

/-! ## The answer's word -/

/-- The events that what is asked for amounts to. -/
def Store.plannedFor (c : Crates) (s : Store) : Option Call → Except Error (List Event)
  | none => .ok []
  | some call => s.plan c call

/-- No connection asks for a restart. -/
theorem asks_ne_reopen (c : Crates) (j : JsonTexts) (settings : Settings) (request : Request) :
    asks c j settings request ≠ some .reopen := by
  have hdemanded (env : Surroundings) (method path body : String) :
      demanded j env method path body ≠ some .reopen := by
    unfold demanded
    split <;> simp [Option.map_eq_some_iff, Option.bind_eq_some_iff]
  unfold asks
  split
  · simp
  · dsimp only
    split
    · simp
    · exact hdemanded _ _ _ _

/-- A commit of finite events whose writes all succeed appends their lines. -/
theorem commit_logs (ht : c.Total) {events : List Event}
    (hfinite : ∀ event ∈ events, event.Finite) (s : Server) (index : Nat) :
    ∃ texts, List.Forall₂ (Logs c) events texts ∧
      Server.commit c (fun _ => .complete) s events index =
        (⟨events.foldl Store.apply s.store, s.log ++ texts.flatMap Server.lineBytes⟩, .ok ()) := by
  induction events generalizing s index with
  | nil => exact ⟨[], .nil, by simp [Server.commit]⟩
  | cons event rest ih =>
      obtain ⟨hevent, hrest⟩ := List.forall_mem_cons.mp hfinite
      obtain ⟨text, htext⟩ := ht.toString event hevent
      obtain ⟨texts, hlogs, hcommit⟩ :=
        ih hrest ⟨s.store.apply event, s.log ++ Server.lineBytes text⟩ (index + 1)
      refine ⟨text :: texts, .cons ⟨hevent, htext⟩ hlogs, ?_⟩
      rw [Server.commit, Server.append, htext]
      dsimp only
      rw [hcommit]
      simp [List.flatMap_cons]

/-- A connection whose writes succeed is answered with an error only if nothing has happened, and
with success only if all that it asked for has happened: the events its call amounts to have been
applied to the maps, and their lines, complete and in order, have been added to the log. -/
theorem answered_as_done (ht : c.Total) (j : JsonTexts) (settings : Settings)
    (state : Server × Metrics) {request : Request} (hwrites : request.env.WritesSucceed) :
    let next := answer c j settings state request
    (isErrorStatus next.2.status = true → next.1.1 = state.1) ∧
    (isErrorStatus next.2.status = false → ∃ events texts,
      state.1.store.plannedFor c (asks c j settings request) = .ok events ∧
      List.Forall₂ (Logs c) events texts ∧
      next.1.1 = ⟨events.foldl Store.apply state.1.store,
        state.1.log ++ texts.flatMap Server.lineBytes⟩) := by
  intro next
  have hserves := handle_serves c j settings state request
  have hreopen := asks_ne_reopen c j settings request
  rw [show request.env.write = fun _ => .complete from funext hwrites] at hserves
  rw [show answer c j settings state request = next from rfl] at hserves
  generalize asks c j settings request = asked at hserves hreopen ⊢
  generalize isErrorStatus next.2.status = failed at hserves ⊢
  generalize next.1.1 = s' at hserves ⊢
  generalize hsucceeded : (!failed) = succeeded at hserves
  cases hserves with
  | idle => exact ⟨fun _ => rfl, fun _ => ⟨[], [], rfl, .nil, by simp⟩⟩
  | @call call s' reply hperform =>
      rw [Server.perform_eq (fun h => hreopen (congrArg some h))] at hperform
      rw [Store.plannedFor]
      cases hplan : state.1.store.plan c call with
      | error e =>
          rw [hplan] at hperform
          obtain ⟨rfl, rfl⟩ := Prod.mk.inj (Option.some.inj hperform)
          refine ⟨fun _ => rfl, fun hfailed => ?_⟩
          simp [hfailed, Except.isOk, Except.toBool] at hsucceeded
      | ok events =>
          obtain ⟨texts, hlogs, hcommit⟩ := commit_logs ht (plan_finite hplan) state.1 0
          rw [hplan] at hperform
          dsimp only at hperform
          rw [hcommit] at hperform
          obtain ⟨rfl, rfl⟩ := Prod.mk.inj (Option.some.inj hperform)
          refine ⟨fun hfailed => ?_, fun _ => ⟨events, texts, rfl, hlogs, rfl⟩⟩
          simp [hfailed, Except.isOk, Except.toBool] at hsucceeded

/-- A registration over HTTP is answered with success and stored. -/
theorem answered_as_done_register :
    let next := answer .reference registrationTexts ⟨none, some "1"⟩ (.fresh, .initial) registering
    isErrorStatus next.2.status = false ∧
      next.1.1.store.devices["d"]? = some (.initial "d" "00" "1") := by
  intro next
  have hwrites : registering.env.WritesSucceed := fun _ => rfl
  have hcreated : isErrorStatus next.2.status = false := by
    rw [show next.2.status = "201 Created" from registering_created]
    rfl
  obtain ⟨events, texts, hplan, -, hdone⟩ := (answered_as_done reference_total registrationTexts
    ⟨none, some "1"⟩ (.fresh, .initial) hwrites).2 hcreated
  rw [asks_registering] at hplan
  obtain rfl := Except.ok.inj hplan
  refine ⟨hcreated, ?_⟩
  rw [show next.1.1 = _ from hdone]
  simp [Store.apply, DeviceRecord.initial]

end Fieldbus.Cloud
