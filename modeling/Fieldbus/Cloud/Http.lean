import Fieldbus.Cloud.Health
import Fieldbus.Library.LineCodec
import Fieldbus.Library.Text

/-!
# The HTTP adapter

After `cloud/src/main.rs`. `readRequest` takes one request from a byte stream, `adminAuthorized`
looks for the administrator's token in its head, and `handle` routes it to the store and counts it.
The JSON functions and the text of an `f64` are the parameter `JsonTexts`; what a request meets
outside the process (the clock, the file system) is the parameter `Surroundings`.
-/

namespace Fieldbus.Cloud

open Text LineCodec

/-- What arrives on a connection, and the error that ends it if that is not the peer closing it. -/
structure Stream where
  bytes : List UInt8
  failure : Option String

/-- The environment variables of the process that are set to valid Unicode. -/
structure Settings where
  /-- `FIELDBUS_ADMIN_TOKEN_SHA256`. -/
  adminTokenSha256 : Option String
  /-- `FIELDBUS_ALLOW_INSECURE_ADMIN`. -/
  allowInsecureAdmin : Option String

/-- What one request meets outside the process. -/
structure Surroundings where
  now : Int64
  write : Nat → Write
  /-- Why the metadata of the log file cannot be read. -/
  metadata : Option String
  /-- The sum of all durations once that of this request has been added. -/
  durationSeconds : F64

/-- The fields of a device that are shown. -/
structure PublicDevice where
  deviceId : String
  credentialVersion : UInt64
  firmwareVersion : String
  configVersion : UInt64
  lastSeenMs : Option Int64
  lastSequence : Option UInt64
  bootCounter : Option UInt64
  deriving DecidableEq, Repr

/-- The texts taken from `serde_json`, and from `Display` for `f64`. -/
structure JsonTexts where
  /-- `from_str` to a value `v`, as the texts `v[field].as_str()` of its fields. -/
  value : String → Except String (String → Option String)
  /-- `from_str` to a list of envelopes. -/
  envelopes : String → Except String (List Envelope)
  /-- `from_str` to firmware metadata. -/
  firmware : String → Except String FirmwareMetadata
  /-- `from_str` to configuration metadata. -/
  config : String → Except String ConfigMetadata
  health : Health → String
  dashboard : List Health → String
  device : PublicDevice → String
  accepted : Nat → String
  error : String → String
  f64 : F64 → String

/-- `Display` for errors. -/
def Error.text : Error → String
  | .io s | .invalid s => s
  | .unauthorized => "unauthorized"
  | .notFound => "not found"
  | .conflict => "conflict"

/-! ## Reading a request -/

/-- `take(8193).read_until(b'\n')`: a line with its line feed, or what there is without one. -/
def readLine (s : Stream) : Except Error (List UInt8 × Stream) :=
  let window := s.bytes.take 8193
  match window.idxOf? ByteLines.newline with
  | some i => .ok (s.bytes.take (i + 1), { s with bytes := s.bytes.drop (i + 1) })
  | none =>
      if window.length = 8193 then .ok (window, { s with bytes := s.bytes.drop 8193 })
      else match s.failure with
        | some e => .error (.io e)
        | none => .ok (window, { s with bytes := [] })

/-- A line is taken from the front of the stream. -/
theorem readLine_split {s rest : Stream} {line : List UInt8} (h : readLine s = .ok (line, rest)) :
    s.bytes = line ++ rest.bytes := by
  simp only [readLine] at h
  split at h
  · rename_i i hi
    obtain ⟨rfl, rfl⟩ := Prod.mk.inj (Except.ok.inj h)
    exact (List.take_append_drop _ _).symm
  · split at h
    · obtain ⟨rfl, rfl⟩ := Prod.mk.inj (Except.ok.inj h)
      exact (List.take_append_drop _ _).symm
    · rename_i hshort
      split at h
      · cases h
      · obtain ⟨rfl, rfl⟩ := Prod.mk.inj (Except.ok.inj h)
        rw [List.append_nil, List.take_of_length_le]
        rw [List.length_take] at hshort
        omega

theorem readLine_length {s rest : Stream} {line : List UInt8} (h : readLine s = .ok (line, rest)) :
    s.bytes.length = line.length + rest.bytes.length := by
  rw [readLine_split h, List.length_append]

/-- The line that ends the headers. -/
def emptyLine : List UInt8 := [ByteLines.carriageReturn, ByteLines.newline]

/-- Read header lines up to and including the empty one. -/
def readHead (head : List UInt8) (s : Stream) : Except Error (List UInt8 × Stream) :=
  match h : readLine s with
  | .error e => .error e
  | .ok (line, rest) =>
      if line.isEmpty ∨ line.length > 8192 ∨ head.length + line.length > 8192 then
        .error (.invalid "invalid or oversized headers")
      else if line = emptyLine then .ok (head ++ line, rest)
      else
        have := readLine_length h
        readHead (head ++ line) rest
termination_by s.bytes.length
decreasing_by
  -- the line is not empty, so the stream gets shorter
  grind [List.isEmpty_iff_length_eq_zero]

/-- `str::parse::<usize>`: decimal digits behind an optional plus sign, with the overflow check. -/
def parseUsize (text : List Char) : Option Nat :=
  let digits := match text with
    | '+' :: rest => rest
    | _ => text
  if digits = [] then none
  else digits.foldlM (fun total ch =>
    if ch.isDigit ∧ total * 10 + (ch.toNat - 48) < 2 ^ 64 then some (total * 10 + (ch.toNat - 48))
    else none) 0

/-- What a header line says about the length of the body. -/
def scanHeader (length : Option Nat) (line : List Char) : Except Error (Option Nat) :=
  match splitOnce ':' line with
  | none => .ok length
  | some (name, value) =>
      if eqIgnoreAsciiCase name "transfer-encoding".toList then
        .error (.invalid "chunked requests unsupported")
      else if eqIgnoreAsciiCase name "content-length".toList then
        if length.isSome then .error (.invalid "duplicate content length")
        else match parseUsize (trim Store.isWhitespace value) with
          | some n => .ok (some n)
          | none => .error (.invalid "invalid content length")
      else .ok length

/-- `read_exact`. -/
def readExact (length : Nat) (s : Stream) : Except Error (List UInt8) :=
  if s.bytes.length < length then .error (.io (s.failure.getD "failed to fill whole buffer"))
  else .ok (s.bytes.take length)

/-- Take a request, its head and its body. -/
def readRequest (s : Stream) : Except Error (String × String) := do
  let (head, rest) ← readHead [] s
  match Utf8.decode head with
  | none => .error (.invalid "invalid headers")
  | some head =>
      let length ← ((lines head.toList).drop 1).foldlM scanHeader none
      let length := length.getD 0
      if length > 65536 then .error (.invalid "request exceeds 64 KiB")
      else
        let body ← readExact length rest
        match Utf8.decode body with
        | none => .error (.invalid "invalid JSON encoding")
        | some body => .ok (head, body)

/-! ## The administrator's token -/

/-- Whether bytes have the given hexadecimal text, without an early exit. -/
def constantTimeHexEqual (actual : List UInt8) (expected : String) : Bool :=
  if expected.utf8ByteSize ≠ 64 ∨ ¬ expected.toList.all (fun ch => decide (ch.toNat < 128)) then
    false
  else
    let actualHex := hex actual
    let difference := (List.zip (Utf8.encode actualHex) (Utf8.encode expected)).foldl
      (fun difference (left, right) => difference ||| (left ^^^ right)) (0 : UInt8)
    decide (actualHex.utf8ByteSize = expected.utf8ByteSize) && difference == 0

/-- The value of a header line if it has the given name. -/
def headerValue (wanted : String) (line : List Char) : Option (List Char) :=
  (splitOnce ':' line).bind fun (name, value) =>
    if eqIgnoreAsciiCase name wanted.toList then some (trim Store.isWhitespace value) else none

/-- The values of the Authorization headers. -/
def authorizationValues (head : String) : List (List Char) :=
  ((lines head.toList).drop 1).filterMap (headerValue "authorization")

/-- Whether a request may use the administrative routes. -/
def adminAuthorized (c : Crates) (settings : Settings) (head : String) : Bool :=
  match settings.adminTokenSha256.filter fun value => !value.isEmpty with
  | none => settings.allowInsecureAdmin == some "1"
  | some expected => match authorizationValues head with
    | [value] => match stripFront "Bearer ".toList value with
      | none => false
      | some token =>
          constantTimeHexEqual (c.sha256 (Utf8.encode (String.ofList token))) expected
    | _ => false

/-- The public part of a device record: everything but its secret. -/
def publicDevice (d : DeviceRecord) : PublicDevice :=
  ⟨d.deviceId, d.credentialVersion, d.firmwareVersion, d.configVersion, d.lastSeenMs,
    d.lastSequence, d.bootCounter⟩

/-! ## Metrics -/

structure Metrics where
  requests : UInt64
  failures : UInt64
  accepted : UInt64
  rejectedInvalid : UInt64
  rejectedUnauthorized : UInt64
  rejectedConflict : UInt64
  rejectedNotFound : UInt64
  rejectedIo : UInt64
  durationSeconds : F64
  durationCount : UInt64

namespace Metrics

/-- Before the first request. -/
def initial : Metrics := ⟨0, 0, 0, 0, 0, 0, 0, 0, ⟨0⟩, 0⟩

/-- Record the duration of a request. -/
def observe (m : Metrics) (env : Surroundings) : Metrics :=
  { m with durationSeconds := env.durationSeconds, durationCount := m.durationCount + 1 }

/-- Count a refusal under its reason. -/
def reject (m : Metrics) : Error → Metrics
  | .invalid _ => { m with rejectedInvalid := m.rejectedInvalid + 1 }
  | .unauthorized => { m with rejectedUnauthorized := m.rejectedUnauthorized + 1 }
  | .conflict => { m with rejectedConflict := m.rejectedConflict + 1 }
  | .notFound => { m with rejectedNotFound := m.rejectedNotFound + 1 }
  | .io _ => { m with rejectedIo := m.rejectedIo + 1 }

end Metrics

/-- The size of the log file. -/
def Server.logBytes (s : Server) (env : Surroundings) : Except Error UInt64 :=
  match env.metadata with
  | some e => .error (.io e)
  | none => .ok (UInt64.ofNat s.log.length)

/-- The body of a scrape. -/
def metricsText (j : JsonTexts) (env : Surroundings) (s : Server) (m : Metrics) : String :=
  let health := s.store.dashboard env.now 120000
  let stale := health.countP Health.stale
  let logBytes := s.logBytes env
  let storeUp := if logBytes.isOk then 1 else 0
  -- an unreadable log has no size, not an empty one
  let bytes := (logBytes.map fun b => toString b).toOption.getD "NaN"
  String.join [
    "# TYPE fieldbus_http_requests_total counter\nfieldbus_http_requests_total ",
    toString m.requests,
    "\n# TYPE fieldbus_http_failures_total counter\nfieldbus_http_failures_total ",
    toString m.failures,
    "\n# TYPE fieldbus_http_rejected_total counter",
    "\nfieldbus_http_rejected_total\x7breason=\"invalid\"\x7d ", toString m.rejectedInvalid,
    "\nfieldbus_http_rejected_total\x7breason=\"unauthorized\"\x7d ",
    toString m.rejectedUnauthorized,
    "\nfieldbus_http_rejected_total\x7breason=\"conflict\"\x7d ", toString m.rejectedConflict,
    "\nfieldbus_http_rejected_total\x7breason=\"not_found\"\x7d ", toString m.rejectedNotFound,
    "\nfieldbus_http_rejected_total\x7breason=\"io\"\x7d ", toString m.rejectedIo,
    "\n# TYPE fieldbus_readings_stored gauge\nfieldbus_readings_stored ",
    toString s.store.readingCount,
    "\n# TYPE fieldbus_devices_stale gauge\nfieldbus_devices_stale ", toString stale,
    "\n# TYPE fieldbus_devices_registered gauge\nfieldbus_devices_registered ",
    toString health.length,
    "\n# TYPE fieldbus_log_bytes gauge\nfieldbus_log_bytes ", bytes,
    "\n# TYPE fieldbus_store_up gauge\nfieldbus_store_up ", toString storeUp,
    "\n# TYPE fieldbus_ingest_accepted_total counter\nfieldbus_ingest_accepted_total ",
    toString m.accepted,
    "\n# TYPE fieldbus_http_duration_seconds summary\nfieldbus_http_duration_seconds_sum ",
    j.f64 m.durationSeconds, "\nfieldbus_http_duration_seconds_count ", toString m.durationCount,
    "\n"]

/-! ## Routing -/

structure Response where
  status : String
  body : String
  contentType : String
  deriving DecidableEq, Repr

/-- The routes that need the administrator's token. -/
def guarded (method path : String) : Bool :=
  [("POST", "/register"), ("POST", "/rotate-credential"), ("POST", "/firmware"),
    ("POST", "/config")].contains (method, path)

variable (c : Crates) (j : JsonTexts) (env : Surroundings)

/-- The routing table, and the status and body of an answer. -/
def route (method path body : String) (s : Server) (m : Metrics) :
    Server × Metrics × Except Error (String × String) :=
  match method, path with
  | "GET", "/healthz" => (s, m, .ok ("200 OK", "\x7b\"status\":\"ok\"\x7d"))
  | "GET", "/dashboard" =>
      (s, m, .ok ("200 OK", j.dashboard (s.store.dashboard env.now 120000)))
  | "POST", "/register" => match j.value body with
    | .error e => (s, m, .error (.invalid e))
    | .ok v =>
        let (s, r) := s.register c ((v "device_id").getD "") ((v "secret_hex").getD "")
          ((v "firmware_version").getD "") (env.write 0)
        (s, m, r.map fun d => ("201 Created", j.device (publicDevice d)))
  | "POST", "/rotate-credential" => match j.value body with
    | .error e => (s, m, .error (.invalid e))
    | .ok v =>
        let (s, r) := s.rotateCredential c ((v "device_id").getD "") ((v "secret_hex").getD "")
          (env.write 0)
        (s, m, r.map fun d => ("200 OK", j.device (publicDevice d)))
  | "POST", "/ingest" => match j.envelopes body with
    | .error e => (s, m, .error (.invalid e))
    | .ok batch =>
        if batch.length ≤ maxBatch then
          match s.ingest c batch env.now env.write with
          | (s, .error e) => (s, m, .error e)
          | (s, .ok n) => (s, { m with accepted := m.accepted + UInt64.ofNat n },
              .ok ("200 OK", j.accepted n))
        else (s, m, .error (.invalid "batch too large"))
  | "POST", "/firmware" => match j.firmware body with
    | .error e => (s, m, .error (.invalid e))
    | .ok metadata =>
        let (s, r) := s.publishFirmware c metadata (env.write 0)
        (s, m, r.map fun _ => ("201 Created", "\x7b\x7d"))
  | "POST", "/config" => match j.config body with
    | .error e => (s, m, .error (.invalid e))
    | .ok metadata =>
        let (s, r) := s.publishConfig c metadata (env.write 0)
        (s, m, r.map fun _ => ("201 Created", "\x7b\x7d"))
  -- the source has this case before the POST routes, none of which it shadows
  | "GET", path => match stripFront "/health/".toList path.toList with
    | some id =>
        (s, m, (s.store.health (String.ofList id) env.now 120000).map fun h =>
          ("200 OK", j.health h))
    | none => (s, m, .error .notFound)
  | _, _ => (s, m, .error .notFound)

/-- The status line of an error. -/
def errorStatus : Error → String
  | .notFound => "404 Not Found"
  | .unauthorized => "401 Unauthorized"
  | .conflict => "409 Conflict"
  | _ => "400 Bad Request"

/-- Handle one connection. -/
def handle (settings : Settings) (stream : Stream) (s : Server) (m : Metrics) :
    Server × Metrics × Response :=
  let m := { m with requests := m.requests + 1 }
  match readRequest stream with
  | .error _ =>
      let m := { m with failures := m.failures + 1, rejectedInvalid := m.rejectedInvalid + 1 }
      (s, m.observe env, ⟨"400 Bad Request", "\x7b\"error\":\"invalid request\"\x7d",
        "application/json"⟩)
  | .ok (head, body) =>
      let words := splitWhitespace Store.isWhitespace ((lines head.toList).headD [])
      let method := String.ofList (words[0]?.getD [])
      let path := String.ofList (words[1]?.getD [])
      if guarded method path && !adminAuthorized c settings head then
        let m := { m with
          failures := m.failures + 1
          rejectedUnauthorized := m.rejectedUnauthorized + 1 }
        (s, m.observe env, ⟨"401 Unauthorized",
          "\x7b\"error\":\"admin authentication required\"\x7d", "application/json"⟩)
      else if method = "GET" ∧ path = "/metrics" then
        let m := m.observe env
        (s, m, ⟨"200 OK", metricsText j env s m, "text/plain; version=0.0.4"⟩)
      else match route c j env method path body s m with
        | (s, m, .ok (status, body)) => (s, m.observe env, ⟨status, body, "application/json"⟩)
        | (s, m, .error e) =>
            let m := m.observe env
            let m := { m with failures := m.failures + 1 }.reject e
            (s, m, ⟨errorStatus e, j.error e.text, "application/json"⟩)

end Fieldbus.Cloud
