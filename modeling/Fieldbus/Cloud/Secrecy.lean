import Fieldbus.Cloud.Serving

/-!
# What answers tell about secrets

Two servers are alike if they differ in the secrets of their devices, the readings themselves and
the metadata at most. Every route but that of a batch, which has to check signatures, keeps them
alike and answers both in the same way (`secrets_not_shown`).
-/

namespace Fieldbus.Cloud

open Text

/-- The devices are the same up to their secrets, and there are as many readings and as many bytes
in the log. -/
structure Alike (s s' : Server) : Prop where
  devices : ∀ id : String,
    s.store.devices[id]?.map publicDevice = s'.store.devices[id]?.map publicDevice
  count : s.store.readingCount = s'.store.readingCount
  log : s.log.length = s'.log.length

variable {c : Crates} {j : JsonTexts} {settings : Settings} {env : Surroundings}
variable {s s' : Server} {m : Metrics}

/-! ## What is shown -/

theorem Alike.contains (h : Alike s s') (id : String) :
    s.store.devices.contains id = s'.store.devices.contains id := by
  have hsome := congrArg Option.isSome (h.devices id)
  rwa [Option.isSome_map, Option.isSome_map, ← Std.ExtTreeMap.contains_eq_isSome_getElem?,
    ← Std.ExtTreeMap.contains_eq_isSome_getElem?] at hsome

/-- The registered devices are listed in the same order. -/
theorem Alike.keys (h : Alike s s') : s.store.devices.keys = s'.store.devices.keys := by
  have hperm : s.store.devices.keys.Perm s'.store.devices.keys := by
    refine (List.perm_ext_iff_of_nodup Std.ExtTreeMap.nodup_keys Std.ExtTreeMap.nodup_keys).mpr
      fun id => ?_
    rw [Std.ExtTreeMap.mem_keys, Std.ExtTreeMap.mem_keys, ← Std.ExtTreeMap.contains_iff_mem,
      ← Std.ExtTreeMap.contains_iff_mem, h.contains]
  refine hperm.eq_of_pairwise ?_ Std.ExtTreeMap.ordered_keys Std.ExtTreeMap.ordered_keys
  intro a b _ _ hlt hgt
  exact absurd hgt (Std.OrientedCmp.not_lt_of_lt hlt)

theorem Alike.health (h : Alike s s') (id : String) (now staleAfterMs : Int64) :
    s.store.health id now staleAfterMs = s'.store.health id now staleAfterMs := by
  have hdevice := h.devices id
  unfold Store.health
  cases hd : s.store.devices[id]? with
  | none =>
      rw [hd, Option.map_none] at hdevice
      rw [Option.map_eq_none_iff.mp hdevice.symm]
  | some d =>
      rw [hd, Option.map_some] at hdevice
      obtain ⟨d', hd', hsame⟩ := Option.map_eq_some_iff.mp hdevice.symm
      simp only [publicDevice, PublicDevice.mk.injEq] at hsame
      simp only [hd', hsame.2.2.2.2.1, hsame.2.2.2.2.2.1, hsame.2.2.2.2.2.2]

theorem Alike.dashboard (h : Alike s s') (now staleAfterMs : Int64) :
    s.store.dashboard now staleAfterMs = s'.store.dashboard now staleAfterMs := by
  simp only [Store.dashboard, h.keys, h.health]

theorem Alike.metricsText (h : Alike s s') : metricsText j env s m = metricsText j env s' m := by
  have hlog : s.logBytes env = s'.logBytes env := by simp only [Server.logBytes, h.log]
  simp only [Cloud.metricsText, h.dashboard, h.count, hlog]

/-! ## What is changed -/

/-- The maps that the same registry event leaves. -/
theorem Alike.insert (h : Alike s s') (d : DeviceRecord) (id : String) :
    (s.store.devices.insert d.deviceId d)[id]?.map publicDevice =
      (s'.store.devices.insert d.deviceId d)[id]?.map publicDevice := by
  rw [Std.ExtTreeMap.getElem?_insert, Std.ExtTreeMap.getElem?_insert]
  split
  · rfl
  · exact h.devices id

/-- Appending the same event, other than a reading, to both. -/
theorem Alike.append (h : Alike s s') {event : Event}
    (hevent : ∀ e receivedMs, event ≠ .readingAccepted e receivedMs) (w : Write) :
    Alike (s.append c event w).1 (s'.append c event w).1 ∧
      (s.append c event w).2 = (s'.append c event w).2 := by
  have happly (text : List UInt8) :
      Alike ⟨s.store.apply event, s.log ++ text⟩ ⟨s'.store.apply event, s'.log ++ text⟩ := by
    have hlog : (s.log ++ text).length = (s'.log ++ text).length := by
      rw [List.length_append, List.length_append, h.log]
    cases event with
    | registered d | credentialRotated d => exact ⟨h.insert d, h.count, hlog⟩
    | readingAccepted e receivedMs => exact absurd rfl (hevent e receivedMs)
    | firmwarePublished metadata | configPublished metadata => exact ⟨h.devices, h.count, hlog⟩
  unfold Server.append
  cases w with
  | openFailed message => exact ⟨h, rfl⟩
  | complete =>
      cases c.toString event with
      | error e => exact ⟨h, rfl⟩
      | ok text => exact ⟨happly _, rfl⟩
  | cut written message =>
      cases c.toString event with
      | error e => exact ⟨h, rfl⟩
      | ok text =>
          refine ⟨⟨h.devices, h.count, ?_⟩, rfl⟩
          simp [h.log]

/-- The answer of a call that names the device once its event is stored. -/
def naming (d : DeviceRecord) : Server × Except Error Unit → Server × Except Error DeviceRecord
  | (s, .error e) => (s, .error e)
  | (s, .ok ()) => (s, .ok d)

theorem Alike.naming {r r' : Server × Except Error Unit} (h : Alike r.1 r'.1 ∧ r.2 = r'.2)
    (d : DeviceRecord) :
    Alike (naming d r).1 (naming d r').1 ∧ (naming d r).2 = (naming d r').2 := by
  obtain ⟨t, result⟩ := r
  obtain ⟨t', result'⟩ := r'
  obtain ⟨halike, rfl⟩ : Alike t t' ∧ result = result' := h
  cases result with
  | error e => exact ⟨halike, rfl⟩
  | ok _ => exact ⟨halike, rfl⟩

theorem Alike.register (h : Alike s s') (deviceId secretHex firmwareVersion : String) (w : Write) :
    Alike (s.register c deviceId secretHex firmwareVersion w).1
        (s'.register c deviceId secretHex firmwareVersion w).1 ∧
      (s.register c deviceId secretHex firmwareVersion w).2 =
        (s'.register c deviceId secretHex firmwareVersion w).2 := by
  unfold Server.register
  rw [h.contains]
  split
  · exact ⟨h, rfl⟩
  · cases unhex secretHex with
    | error e => exact ⟨h, rfl⟩
    | ok key => exact Alike.naming (h.append (by simp) w) _

/-- A rotation leaves the same record in both. -/
theorem rotated_eq {d d' : DeviceRecord} (h : publicDevice d = publicDevice d')
    (secretHex : String) : d.rotated secretHex = d'.rotated secretHex := by
  obtain ⟨id, version, secret, firmware, config, seen, sequence, boot⟩ := d
  obtain ⟨id', version', secret', firmware', config', seen', sequence', boot'⟩ := d'
  simp only [publicDevice, PublicDevice.mk.injEq] at h
  obtain ⟨rfl, rfl, rfl, rfl, rfl, rfl, rfl⟩ := h
  rfl

theorem Alike.rotate (h : Alike s s') (id secretHex : String) (w : Write) :
    Alike (s.rotateCredential c id secretHex w).1 (s'.rotateCredential c id secretHex w).1 ∧
      (s.rotateCredential c id secretHex w).2 = (s'.rotateCredential c id secretHex w).2 := by
  have hdevice := h.devices id
  unfold Server.rotateCredential
  cases hd : s.store.devices[id]? with
  | none =>
      rw [hd, Option.map_none] at hdevice
      rw [Option.map_eq_none_iff.mp hdevice.symm]
      exact ⟨h, rfl⟩
  | some d =>
      rw [hd, Option.map_some] at hdevice
      obtain ⟨d', hd', hsame⟩ := Option.map_eq_some_iff.mp hdevice.symm
      rw [hd']
      dsimp only
      cases unhex secretHex with
      | error e => exact ⟨h, rfl⟩
      | ok key =>
          have hrotated := rotated_eq hsame secretHex
          simp only [DeviceRecord.rotated] at hrotated
          rw [hrotated]
          exact Alike.naming (h.append (by simp) w) _

/-! ## Requests -/

/-- Two results of a route are alike, with the same metrics and the same reply. -/
structure SameReply (r r' : Server × Metrics × Except Error (String × String)) : Prop where
  servers : Alike r.1 r'.1
  metrics : r.2.1 = r'.2.1
  reply : r.2.2 = r'.2.2

/-- A route that makes a call that keeps alike servers alike. -/
theorem Alike.calling {α β : Type} {parsed : Except String α} {shown : β → String × String}
    {call call' : α → Server × Except Error β} (h : Alike s s')
    (hcall : ∀ a, Alike (call a).1 (call' a).1 ∧ (call a).2 = (call' a).2) (m : Metrics) :
    SameReply (calling parsed s m call shown) (calling parsed s' m call' shown) := by
  cases parsed with
  | error e => exact ⟨h, rfl, rfl⟩
  | ok a => exact ⟨(hcall a).1, rfl, congrArg (Except.map shown) (hcall a).2⟩

/-- A publication: an append behind a check of what is published. -/
theorem Alike.checked (h : Alike s s') (refused : Prop) [Decidable refused] (error : Error)
    {event : Event} (hevent : ∀ e receivedMs, event ≠ .readingAccepted e receivedMs) (w : Write) :
    Alike (if refused then (s, .error error) else s.append c event w).1
        (if refused then (s', .error error) else s'.append c event w).1 ∧
      (if refused then (s, .error error) else s.append c event w).2 =
        (if refused then (s', .error error) else s'.append c event w).2 := by
  split
  · exact ⟨h, rfl⟩
  · exact h.append hevent w

/-- A route that does not demand a batch answers alike servers in the same way. -/
theorem Alike.route (h : Alike s s') {method path body : String}
    (hbatch : ∀ batch receivedMs, demanded j env method path body ≠ some (.ingest batch receivedMs))
    (m : Metrics) :
    SameReply (route c j env method path body s m) (route c j env method path body s' m) := by
  unfold demanded at hbatch
  split at hbatch
  · rw [route_register, route_register]
    exact h.calling (fun _ => h.register _ _ _ _) m
  · rw [route_rotate, route_rotate]
    exact h.calling (fun _ => h.rotate _ _ _) m
  · rw [Cloud.route, Cloud.route]
    cases hbody : j.envelopes body with
    | error e => exact ⟨h, rfl, rfl⟩
    | ok batch =>
        dsimp only
        split
        · rename_i hsize
          refine absurd ?_ (hbatch batch env.now)
          rw [hbody]
          exact if_pos hsize
        · exact ⟨h, rfl, rfl⟩
  · rw [route_firmware, route_firmware]
    exact h.calling (fun _ => h.checked _ _ (by simp) _) m
  · rw [route_config, route_config]
    exact h.calling (fun _ => h.checked _ _ (by simp) _) m
  · unfold Cloud.route
    split
    · exact ⟨h, rfl, rfl⟩
    · exact ⟨h, rfl, by rw [h.dashboard]⟩
    iterate 5 simp_all
    · split
      · exact ⟨h, rfl, by rw [h.health]⟩
      · exact ⟨h, rfl, rfl⟩
    · exact ⟨h, rfl, rfl⟩

/-- A connection that does not ask for a batch to be stored keeps alike servers alike, and is
answered by both in the same way. -/
theorem Alike.answer (h : Alike s s') {request : Request}
    (hbatch : ∀ batch receivedMs, asks c j settings request ≠ some (.ingest batch receivedMs))
    (m : Metrics) :
    Alike (answer c j settings (s, m) request).1.1 (answer c j settings (s', m) request).1.1 ∧
      (answer c j settings (s, m) request).1.2 = (answer c j settings (s', m) request).1.2 ∧
      (answer c j settings (s, m) request).2 = (answer c j settings (s', m) request).2 := by
  simp only [answer_server, answer_metrics, answer_response]
  unfold asks at hbatch
  unfold handle
  cases hread : readRequest request.stream with
  | error e => exact ⟨h, rfl, rfl⟩
  | ok read =>
      obtain ⟨head, body⟩ := read
      rw [hread] at hbatch
      dsimp only at hbatch ⊢
      generalize splitWhitespace Store.isWhitespace ((lines head.toList).headD []) = words at *
      generalize String.ofList (words[0]?.getD []) = method at *
      generalize String.ofList (words[1]?.getD []) = path at *
      split
      · exact ⟨h, rfl, rfl⟩
      · rename_i hadmitted
        rw [if_neg hadmitted] at hbatch
        split
        · exact ⟨h, rfl, by rw [h.metricsText]⟩
        · have hsame := h.route (c := c) hbatch { m with requests := m.requests + 1 }
          generalize Cloud.route c j request.env method path body s
            { m with requests := m.requests + 1 } = r at hsame ⊢
          generalize Cloud.route c j request.env method path body s'
            { m with requests := m.requests + 1 } = r' at hsame ⊢
          obtain ⟨t, n, reply⟩ := r
          obtain ⟨t', n', reply'⟩ := r'
          obtain ⟨halike, rfl, rfl⟩ := hsame
          cases reply with
          | error e => exact ⟨halike, rfl, rfl⟩
          | ok shown => exact ⟨halike, rfl, rfl⟩

/-- The answers tell nothing about secrets that are stored. Of two servers that differ at most in
the secrets of their devices, in the readings they have stored, of which there are as many, and in
their metadata, and whose logs are of one length, every sequence of requests that does not ask for a
batch to be stored gets the same answers. -/
theorem secrets_not_shown (h : Alike s s') {requests : List Request}
    (hbatch : ∀ request ∈ requests, ∀ batch receivedMs,
      asks c j settings request ≠ some (.ingest batch receivedMs)) (m : Metrics) :
    Machine.trace (answer c j settings) (s, m) requests =
      Machine.trace (answer c j settings) (s', m) requests := by
  induction requests generalizing s s' m with
  | nil => rfl
  | cons request rest ih =>
      obtain ⟨hfirst, hrest⟩ := List.forall_mem_cons.mp hbatch
      obtain ⟨halike, hmetrics, hresponse⟩ := h.answer hfirst m
      rw [Machine.trace_cons, Machine.trace_cons, hresponse]
      have htail := ih halike hrest (answer c j settings (s, m) request).1.2
      rw [Prod.mk.eta, hmetrics, Prod.mk.eta] at htail
      rw [htail]

/-- Two servers with one device and different secrets, of which the dashboard is asked. -/
theorem secrets_not_shown_dashboard :
    let texts : JsonTexts := ⟨fun _ => .error "", fun _ => .error "", fun _ => .error "",
      fun _ => .error "", fun _ => "", fun _ => "", fun _ => "", fun _ => "", fun _ => "",
      fun _ => ""⟩
    let server (secretHex : String) : Server :=
      ⟨Store.empty.apply (.registered (.initial "d" secretHex "1")), []⟩
    let request : Request := ⟨⟨20, fun _ => .complete, none, ⟨0⟩⟩,
      ⟨Utf8.encode "GET /dashboard HTTP/1.1\r\n\r\n", none⟩⟩
    Machine.trace (answer .reference texts ⟨none, none⟩) (server "00", .initial) [request] =
      Machine.trace (answer .reference texts ⟨none, none⟩) (server "11", .initial) [request] := by
  intro texts server request
  have halike : Alike (server "00") (server "11") := by
    refine ⟨fun id => ?_, rfl, rfl⟩
    simp only [server, Store.apply, Store.empty, DeviceRecord.initial,
      Std.ExtTreeMap.getElem?_insert]
    split <;> rfl
  refine secrets_not_shown halike ?_ .initial
  refine List.forall_mem_singleton.mpr fun batch receivedMs => ?_
  have hrequest : readRequest request.stream = .ok ("GET /dashboard HTTP/1.1\r\n\r\n", "") := by
    decide +kernel
  have hmethod : String.ofList ((splitWhitespace Store.isWhitespace
      ((lines "GET /dashboard HTTP/1.1\r\n\r\n".toList).headD []))[0]?.getD []) = "GET" := by
    decide
  simp only [asks, hrequest, hmethod, demanded_get]
  split <;> simp

end Fieldbus.Cloud
