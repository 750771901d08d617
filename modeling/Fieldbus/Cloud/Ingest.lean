import Fieldbus.Cloud.Replay
import Fieldbus.Cloud.Signature

/-!
# Ingest meets its specification

`Acceptable` says in terms of the live store when a batch may be stored, and `ingest_spec` that
`ingest` succeeds exactly then, stores exactly the new identities of the batch, and otherwise
changes nothing. The bound on the number of stored readings is an invariant of every run
(`capacity_run`).
-/

namespace Fieldbus.Cloud

variable {c : Crates}

/-- The record after a reading of the device was accepted. -/
def DeviceRecord.seen (d : DeviceRecord) (r : Reading) (receivedMs : Int64) : DeviceRecord :=
  { d with
    lastSeenMs := some receivedMs, lastSequence := some r.sequence,
    bootCounter := some r.bootCounter }

/-- An accepted secret signs every finite reading. -/
theorem exists_sign (hj : c.Serializes) {secretHex : String} {key : List UInt8}
    (hkey : unhex secretHex = .ok key) {r : Reading} (hfinite : r.value.isFinite = true) :
    ∃ signature, sign c secretHex r = .ok signature := by
  obtain ⟨body, hbody⟩ := hj.toVec r hfinite
  exact ⟨_, sign_ok_iff.mpr ⟨_, body, by rw [keyBlock, hkey]; rfl, hbody, rfl⟩⟩

namespace Store

/-- The stored envelope of an identity. -/
def lookup (s : Store) (id : String × SessionKey) : Option Envelope := s.readings.find id.1 id.2

/-- The store after envelopes were accepted one by one. -/
def acceptAll (s : Store) (receivedMs : Int64) (envelopes : List Envelope) : Store :=
  (envelopes.map fun e => Event.readingAccepted e receivedMs).foldl apply s

/-- A record without the figures that health reports. -/
def registration (d : DeviceRecord) : DeviceRecord :=
  { d with lastSeenMs := none, lastSequence := none, bootCounter := none }

/-- The stores differ in readings and health figures only. -/
structure SameRegistry (s s' : Store) : Prop where
  devices : ∀ id : String, s'.devices[id]?.map registration = s.devices[id]?.map registration
  firmware : s'.firmware = s.firmware
  config : s'.config = s.config

variable (s : Store) (receivedMs : Int64)

theorem SameRegistry.refl : SameRegistry s s := ⟨fun _ => rfl, rfl, rfl⟩

variable {s}

theorem SameRegistry.trans {s' s'' : Store} (h : SameRegistry s s') (h' : SameRegistry s' s'') :
    SameRegistry s s'' :=
  ⟨fun id => (h'.devices id).trans (h.devices id), h'.firmware.trans h.firmware,
    h'.config.trans h.config⟩

/-! ## One accepted envelope -/

variable (s) (e : Envelope)

theorem lookup_accept (id : String × SessionKey) :
    (s.apply (.readingAccepted e receivedMs)).lookup id =
      if e.reading.identity = id then some e else s.lookup id := by
  rw [lookup, apply, NestedMap.find_put]
  simp only [Reading.identity, Prod.ext_iff, lookup]

theorem count_accept :
    (s.apply (.readingAccepted e receivedMs)).readingCount =
      if s.lookup e.reading.identity = none then s.readingCount + 1 else s.readingCount :=
  NestedMap.count_put _ _ _ _

/-- An accepted reading moves the figures of its device. -/
theorem devices_accept (id : String) :
    (s.apply (.readingAccepted e receivedMs)).devices[id]? =
      if e.reading.deviceId = id then s.devices[id]?.map fun d => d.seen e.reading receivedMs
      else s.devices[id]? := by
  simp only [apply]
  split
  · rename_i d hd
    rw [Std.ExtTreeMap.getElem?_insert]
    by_cases hid : e.reading.deviceId = id
    · subst hid
      simp [hd, DeviceRecord.seen]
    · simp [hid]
  · rename_i hnone
    split
    · rename_i hid
      rw [← hid, hnone]
      rfl
    · rfl

theorem registry_accept : SameRegistry s (s.apply (.readingAccepted e receivedMs)) := by
  refine ⟨fun id => ?_, rfl, rfl⟩
  rw [devices_accept]
  split
  · cases s.devices[id]? <;> rfl
  · rfl

/-! ## A list of accepted envelopes -/

variable {s} {envelopes : List Envelope}

theorem accept_all_cons (first : Envelope) (rest : List Envelope) :
    s.acceptAll receivedMs (first :: rest) =
      (s.apply (.readingAccepted first receivedMs)).acceptAll receivedMs rest := rfl

/-- Accepted envelopes move the figures of a device by those of them that are its own, in order. -/
theorem devices_accept_all (id : String) :
    (s.acceptAll receivedMs envelopes).devices[id]? = s.devices[id]?.map fun d =>
      (envelopes.filter fun e => e.reading.deviceId = id).foldl
        (fun d e => d.seen e.reading receivedMs) d := by
  induction envelopes generalizing s with
  | nil => simp [acceptAll]
  | cons e rest ih =>
      rw [accept_all_cons, ih, devices_accept]
      by_cases hid : e.reading.deviceId = id
      · simp [hid, Function.comp_def]
      · simp [hid]

/-- A device without accepted envelopes keeps its record. -/
theorem devices_accept_all_of_ne {id : String} (h : ∀ e ∈ envelopes, e.reading.deviceId ≠ id) :
    (s.acceptAll receivedMs envelopes).devices[id]? = s.devices[id]? := by
  rw [devices_accept_all, List.filter_eq_nil_iff.mpr (by simpa using h)]
  exact Option.map_id_apply

/-- Identities that are not accepted keep what they have. -/
theorem lookup_accept_all_of_notMem {id : String × SessionKey}
    (h : ∀ e ∈ envelopes, e.reading.identity ≠ id) :
    (s.acceptAll receivedMs envelopes).lookup id = s.lookup id := by
  induction envelopes generalizing s with
  | nil => rfl
  | cons e rest ih =>
      obtain ⟨he, hrest⟩ := List.forall_mem_cons.mp h
      rw [accept_all_cons, ih hrest, lookup_accept, if_neg he]

/-- Among distinct identities, each accepted envelope is stored under its own. -/
theorem lookup_accept_all_of_mem
    (hnodup : (envelopes.map fun e => e.reading.identity).Nodup) {e : Envelope}
    (he : e ∈ envelopes) :
    (s.acceptAll receivedMs envelopes).lookup e.reading.identity = some e := by
  induction envelopes generalizing s with
  | nil => simp at he
  | cons first rest ih =>
      obtain ⟨hfresh, hrest⟩ := List.nodup_cons.mp hnodup
      rw [accept_all_cons]
      rcases List.mem_cons.mp he with rfl | he
      · rw [lookup_accept_all_of_notMem, lookup_accept, if_pos rfl]
        intro e' he' heq
        exact hfresh (List.mem_map.mpr ⟨e', he', heq⟩)
      · exact ih hrest he

/-- Distinct new identities are counted one by one. -/
theorem count_accept_all (hnodup : (envelopes.map fun e => e.reading.identity).Nodup)
    (hnew : ∀ e ∈ envelopes, s.lookup e.reading.identity = none) :
    (s.acceptAll receivedMs envelopes).readingCount = s.readingCount + envelopes.length := by
  induction envelopes generalizing s with
  | nil => rfl
  | cons e rest ih =>
      obtain ⟨hfresh, hrest⟩ := List.nodup_cons.mp hnodup
      obtain ⟨he, hnewRest⟩ := List.forall_mem_cons.mp hnew
      rw [accept_all_cons, ih hrest, count_accept, if_pos he, List.length_cons]
      · omega
      · intro e' he'
        rw [lookup_accept, if_neg]
        · exact hnewRest e' he'
        · intro heq
          exact hfresh (List.mem_map.mpr ⟨e', he', heq.symm⟩)

theorem registry_accept_all : SameRegistry s (s.acceptAll receivedMs envelopes) := by
  induction envelopes generalizing s with
  | nil => exact .refl s
  | cons e rest ih => exact (registry_accept s receivedMs e).trans ih

/-- What a reviewed batch leaves to be stored is new. -/
theorem Reviewed.new {batch added : List Envelope} (h : Reviewed c s [] batch added) :
    ∀ e ∈ added, s.lookup e.reading.identity = none :=
  fun e he => (known_nil e.reading).symm.trans (h.fresh e he)

/-- After a reviewed batch was accepted, each of its identities holds an equal reading. -/
theorem Reviewed.lookup_batch {batch added : List Envelope} (h : Reviewed c s [] batch added) :
    ∀ e ∈ batch, ∃ p, (s.acceptAll receivedMs added).lookup e.reading.identity = some p ∧
      (p.reading == e.reading) = true := by
  intro e he
  obtain ⟨p, hp, heq⟩ := h.covered e he
  refine ⟨p, ?_, heq⟩
  rw [known_append, known_nil, Option.or_eq_some_iff] at hp
  rcases hp with hstored | ⟨-, hfound⟩
  · rw [lookup_accept_all_of_notMem]
    · exact hstored
    · intro e' he' hid
      have hnew := h.new e' he'
      rw [hid] at hnew
      exact Option.some_ne_none p (hstored.symm.trans hnew)
  -- the reading is new: the envelope found in the batch has been stored
  · have hid : p.reading.identity = e.reading.identity := by
      simpa using List.find?_some hfound
    rw [← hid]
    exact lookup_accept_all_of_mem receivedMs h.nodup (List.mem_of_find?_eq_some hfound)

/-- What was stored before is still there. -/
theorem Reviewed.lookup_stored {batch added : List Envelope} (h : Reviewed c s [] batch added)
    {id : String × SessionKey} {p : Envelope} (hp : s.lookup id = some p) :
    (s.acceptAll receivedMs added).lookup id = some p := by
  rw [lookup_accept_all_of_notMem, hp]
  intro e he hid
  have hnew := h.new e he
  rw [hid, hp] at hnew
  exact Option.some_ne_none p hnew

/-- What is stored afterwards was stored before or is an envelope of the batch. -/
theorem Reviewed.lookup_only {batch added : List Envelope} (h : Reviewed c s [] batch added)
    {id : String × SessionKey} {p : Envelope}
    (hp : (s.acceptAll receivedMs added).lookup id = some p) :
    s.lookup id = some p ∨ p ∈ batch ∧ p.reading.identity = id := by
  by_cases hmem : ∃ e ∈ added, e.reading.identity = id
  · obtain ⟨e, he, rfl⟩ := hmem
    rw [lookup_accept_all_of_mem receivedMs h.nodup he] at hp
    obtain rfl := Option.some.inj hp
    exact .inr ⟨h.mem e he, rfl⟩
  · rw [lookup_accept_all_of_notMem receivedMs (by simpa using hmem)] at hp
    exact .inl hp

/-- A batch that may be stored. -/
structure Acceptable (c : Crates) (s : Store) (batch : List Envelope) : Prop where
  nonempty : 1 ≤ batch.length
  bounded : batch.length ≤ maxBatch
  valid : ∀ e ∈ batch, s.Valid c e
  consistent : s.Consistent batch
  capacity : s.readingCount + (s.newIdentities batch).card ≤ maxStoredReadings

/-- A batch that passes its checks may be stored, and what is planned are new readings of it. -/
theorem acceptable_of_plan {batch : List Envelope} {receivedMs : Int64} {planned : List Event}
    (h : s.plan c (.ingest batch receivedMs) = .ok planned) :
    s.Acceptable c batch ∧ ∀ event ∈ planned, ∃ e ∈ batch, s.lookup e.reading.identity = none ∧
      event = .readingAccepted e receivedMs := by
  rw [plan] at h
  split at h
  · cases h
  · rename_i hsize
    split at h
    · cases h
    · rename_i unseen hreview
      split at h
      · cases h
      · rename_i hroom
        obtain ⟨hvalid, hconsistent⟩ := review_batch_iff.mp ⟨unseen, hreview⟩
        obtain ⟨added, hadded, hreviewed⟩ := review_batch_ok hreview
        obtain rfl : added = unseen := hadded.symm
        obtain rfl := Except.ok.inj h
        rw [List.isEmpty_iff_length_eq_zero] at hsize
        rw [hreviewed.length_eq] at hroom
        refine ⟨⟨by omega, by omega, hvalid, hconsistent, by omega⟩, fun event hevent => ?_⟩
        obtain ⟨e, he, rfl⟩ := List.mem_map.mp hevent
        exact ⟨e, hreviewed.mem e he, hreviewed.new e he, rfl⟩

/-- Valid envelopes whose readings are all stored already are an acceptable batch with no new
identities. -/
theorem acceptable_of_duplicates {batch : List Envelope} (hnonempty : 1 ≤ batch.length)
    (hbounded : batch.length ≤ maxBatch) (hcapacity : s.readingCount ≤ maxStoredReadings)
    (h : ∀ e ∈ batch, s.Valid c e ∧ ∃ p, s.lookup e.reading.identity = some p ∧
      (p.reading == e.reading) = true) :
    s.Acceptable c batch ∧ s.newIdentities batch = ∅ := by
  have hempty : s.newIdentities batch = ∅ := by
    rw [newIdentities, Finset.filter_eq_empty_iff]
    intro id hid
    obtain ⟨e, he, rfl⟩ := List.mem_map.mp (List.mem_toFinset.mp hid)
    obtain ⟨p, hp, -⟩ := (h e he).2
    have hfind : s.readings.find e.reading.identity.1 e.reading.identity.2 = some p := hp
    simp [hfind]
  refine ⟨⟨hnonempty, hbounded, fun e he => (h e he).1, ⟨fun e he p hp => ?_,
    fun e he e' he' hid => ?_⟩, by simpa [hempty] using hcapacity⟩, hempty⟩
  · obtain ⟨q, hq, heq⟩ := (h e he).2
    obtain rfl : p = q := Option.some.inj (hp.symm.trans hq)
    exact heq
  · obtain ⟨p, hp, heq⟩ := (h e he).2
    obtain ⟨p', hp', heq'⟩ := (h e' he').2
    rw [hid, hp'] at hp
    obtain rfl := Option.some.inj hp
    exact Reading.beq_trans (Reading.beq_symm heq) heq'

/-- A valid envelope with a new identity is an acceptable batch by itself, as long as there is
room. -/
theorem acceptable_singleton {e : Envelope} (hvalid : s.Valid c e)
    (hnew : s.lookup e.reading.identity = none)
    (hroom : s.readingCount < maxStoredReadings) :
    s.Acceptable c [e] ∧ (s.newIdentities [e]).card = 1 := by
  have hids : s.newIdentities [e] = {e.reading.identity} := by
    simp only [newIdentities, List.map_singleton, List.toFinset_cons, List.toFinset_nil]
    refine Finset.filter_true_of_mem fun id hid => ?_
    obtain rfl : id = e.reading.identity := by simpa using hid
    exact Option.isNone_iff_eq_none.mpr hnew
  have hcard : (s.newIdentities [e]).card = 1 := by rw [hids, Finset.card_singleton]
  refine ⟨⟨by simp, by simp [maxBatch], by simpa using hvalid, ⟨?_, ?_⟩, by omega⟩, hcard⟩
  · simp only [List.mem_singleton]
    rintro _ rfl p hp
    exact absurd (hp.symm.trans hnew) (Option.some_ne_none p)
  · simp only [List.mem_singleton]
    rintro _ rfl _ rfl -
    exact Reading.beq_of_finite hvalid.finite

theorem review_singleton {e : Envelope} (hvalid : s.Valid c e)
    (hnew : s.lookup e.reading.identity = none) : [e].foldlM (s.review c) [] = .ok [e] := by
  have hknown : s.known [] e.reading = none := by
    rw [known_nil]
    exact hnew
  rw [List.foldlM_cons, review_of_valid hvalid, hknown]
  rfl

/-- A valid envelope with a new identity is planned by itself, as long as there is room. -/
theorem plan_singleton {e : Envelope} (hvalid : s.Valid c e)
    (hnew : s.lookup e.reading.identity = none) (hroom : s.readingCount < maxStoredReadings)
    (receivedMs : Int64) :
    s.plan c (.ingest [e] receivedMs) = .ok [.readingAccepted e receivedMs] := by
  rw [plan, if_neg (by simp [maxBatch]), review_singleton hvalid hnew]
  dsimp only
  rw [if_neg (by rw [List.length_singleton]; omega)]
  rfl

/-- On a store with one device, an envelope signed with its secret is valid if its reading is. -/
theorem valid_registered {id secretHex firmwareVersion : String} {e : Envelope}
    (hversion : e.protocolVersion = Cloud.protocolVersion) (hid : e.reading.deviceId = id)
    (hsign : sign c secretHex e.reading = .ok e.signature)
    (hfinite : e.reading.value.isFinite = true) (hquality : e.reading.quality ≠ "") :
    (Store.empty.apply (.registered (.initial id secretHex firmwareVersion))).Valid c e :=
  ⟨hversion, ⟨.initial id secretHex firmwareVersion, by simp [apply, DeviceRecord.initial, hid],
    hsign⟩, hfinite, hquality⟩

/-- A device registered by itself signs any finite reading into a valid envelope. -/
theorem signed_registered (hj : c.Serializes) {secretHex : String} {key : List UInt8}
    (hkey : unhex secretHex = .ok key) (firmwareVersion : String) {r : Reading}
    (hfinite : r.value.isFinite = true) (hquality : r.quality ≠ "") :
    ∃ signature, signed c secretHex r = .ok ⟨Cloud.protocolVersion, r, signature⟩ ∧
      (Store.empty.apply (.registered (.initial r.deviceId secretHex firmwareVersion))).Valid c
        ⟨Cloud.protocolVersion, r, signature⟩ := by
  obtain ⟨signature, hsign⟩ := exists_sign hj hkey hfinite
  exact ⟨signature, signed_ok_iff.mpr ⟨rfl, rfl, hsign⟩,
    valid_registered rfl rfl hsign hfinite hquality⟩

end Store

namespace Server

variable {s : Server} {batch : List Envelope}

/-- A commit of finite events whose writes all succeed applies them all. -/
theorem commit_complete (ht : c.Total) {events : List Event}
    (hfinite : ∀ event ∈ events, event.Finite) (s : Server) (index : Nat) :
    ∃ log, commit c (fun _ => .complete) s events index =
      (⟨events.foldl Store.apply s.store, log⟩, .ok ()) := by
  induction events generalizing s index with
  | nil => exact ⟨s.log, rfl⟩
  | cons event rest ih =>
      obtain ⟨hevent, hrest⟩ := List.forall_mem_cons.mp hfinite
      obtain ⟨text, htext⟩ := ht.toString event hevent
      rw [commit, append, htext]
      exact ih hrest _ _

/-- A call that plans one event stores it and writes its line. -/
theorem perform_single {call : Call} (hcall : call ≠ .reopen) {event : Event} {text : String}
    (hplan : s.store.plan c call = .ok [event]) (htext : c.toString event = .ok text) :
    s.perform c call (fun _ => .complete) =
      some (⟨s.store.apply event, s.log ++ lineBytes text⟩, .ok ()) := by
  rw [perform_eq hcall, hplan]
  dsimp only
  rw [commit_singleton, append, htext]

/-- A batch of one new reading is stored and counted. -/
theorem ingest_single {e : Envelope} {text : String} {receivedMs : Int64}
    (hvalid : s.store.Valid c e) (hnew : s.store.lookup e.reading.identity = none)
    (hroom : s.store.readingCount < maxStoredReadings)
    (htext : c.toString (.readingAccepted e receivedMs) = .ok text) :
    s.ingest c [e] receivedMs (fun _ => .complete) =
      (⟨s.store.apply (.readingAccepted e receivedMs), s.log ++ lineBytes text⟩, .ok 1) := by
  rw [ingest, if_neg (by simp [maxBatch]), Store.review_singleton hvalid hnew]
  dsimp only
  rw [if_neg (by rw [List.length_singleton]; omega)]
  simp only [accept, append, htext, Nat.zero_add]

/-- A device registers, and its first reading is stored. -/
theorem first_reading {r : Reading} (hfinite : r.value.isFinite = true) (hquality : r.quality ≠ "")
    (receivedMs : Int64) :
    let registered : Event := .registered (.initial r.deviceId "00" "1")
    let s : Server := ⟨Store.empty.apply registered, lineBytes (Json.print registered)⟩
    ∃ e s', signed .reference "00" r = .ok e ∧ e.reading = r ∧
      fresh.perform .reference (.register r.deviceId "00" "1") (fun _ => .complete) =
        some (s, .ok ()) ∧
      s.ingest .reference [e] receivedMs (fun _ => .complete) = (s', .ok 1) ∧
      s.perform .reference (.ingest [e] receivedMs) (fun _ => .complete) = some (s', .ok ()) ∧
      s'.store = Store.replay [registered, .readingAccepted e receivedMs] ∧
      Sealed .reference [registered, .readingAccepted e receivedMs] s'.log := by
  intro registered s
  obtain ⟨signature, hsigned, hvalid⟩ := Store.signed_registered reference_serializes
    (show unhex "00" = .ok [0] from rfl) "1" hfinite hquality
  have hnone : ∀ id, s.store.lookup id = none := fun id => NestedMap.find_empty id.1 id.2
  have hplan : fresh.store.plan .reference (.register r.deviceId "00" "1") = .ok [registered] := by
    rw [Store.plan, if_neg (by simp [fresh, Store.empty])]
    rfl
  have hroom : s.store.readingCount < maxStoredReadings := Nat.le_of_ble_eq_true rfl
  have hempty : Sealed .reference [] fresh.log := ⟨[], .nil, rfl⟩
  have hsealed : Sealed .reference [registered] s.log := hempty.append ⟨trivial, rfl⟩
  exact ⟨_, _, hsigned, rfl, perform_single (by simp) hplan rfl,
    ingest_single hvalid (hnone _) hroom rfl,
    perform_single (by simp) (Store.plan_singleton hvalid (hnone _) hroom receivedMs) rfl, rfl,
    hsealed.append ⟨hfinite, rfl⟩⟩

/-- An acceptable batch is stored: its new identities are accepted one by one. -/
theorem ingest_of_acceptable (ht : c.Total) (h : s.store.Acceptable c batch)
    (receivedMs : Int64) :
    ∃ added log, Store.Reviewed c s.store [] batch added ∧
      s.ingest c batch receivedMs (fun _ => .complete) =
        (⟨s.store.acceptAll receivedMs added, log⟩, .ok added.length) := by
  obtain ⟨result, hresult⟩ := Store.review_batch_iff.mpr ⟨h.valid, h.consistent⟩
  obtain ⟨added, hadded, hreviewed⟩ := Store.review_batch_ok hresult
  obtain rfl : added = result := hadded.symm
  have hfinite : ∀ event ∈ added.map fun e => Event.readingAccepted e receivedMs,
      event.Finite := by
    intro event hevent
    obtain ⟨e, he, rfl⟩ := List.mem_map.mp hevent
    exact (hreviewed.valid e (hreviewed.mem e he)).finite
  obtain ⟨log, hcommit⟩ := commit_complete ht hfinite s 0
  refine ⟨added, log, hreviewed, ?_⟩
  have hsize : ¬ (batch.isEmpty = true ∨ batch.length > maxBatch) := by
    have hnonempty := h.nonempty
    have hbounded := h.bounded
    rw [List.isEmpty_iff_length_eq_zero]
    omega
  have hcapacity : ¬ s.store.readingCount + added.length > maxStoredReadings := by
    have := h.capacity
    rw [← hreviewed.length_eq] at this
    omega
  rw [ingest, if_neg hsize, hresult]
  dsimp only
  rw [if_neg hcapacity, accept_eq, hcommit]
  simp [Except.map, Store.acceptAll]

/-- Any other batch is refused and changes nothing. -/
theorem ingest_of_not_acceptable (h : ¬ s.store.Acceptable c batch) (receivedMs : Int64)
    (w : Nat → Write) : ∃ error, s.ingest c batch receivedMs w = (s, .error error) := by
  unfold ingest
  split
  · exact ⟨_, rfl⟩
  · rename_i hsize
    rw [List.isEmpty_iff_length_eq_zero] at hsize
    cases hreview : batch.foldlM (s.store.review c) [] with
    | error e => exact ⟨e, rfl⟩
    | ok unseen =>
        dsimp only
        split
        · exact ⟨_, rfl⟩
        · rename_i hcapacity
          obtain ⟨hvalid, hconsistent⟩ := Store.review_batch_iff.mp ⟨unseen, hreview⟩
          obtain ⟨added, hadded, hreviewed⟩ := Store.review_batch_ok hreview
          obtain rfl : added = unseen := hadded.symm
          rw [hreviewed.length_eq] at hcapacity
          exact absurd ⟨by omega, by omega, hvalid, hconsistent, by omega⟩ h

/-! ## Capacity -/

variable {reread : F64 → F64}

/-- The bound on stored readings survives every call. -/
theorem capacity_perform (hc : c.Rereads reread) {s s' : Server} {call : Call}
    {reply : Except Error Unit} (hrecorded : Recorded c reread s)
    (h : s.store.readingCount ≤ maxStoredReadings)
    (hperform : s.perform c call (fun _ => .complete) = some (s', reply)) :
    s'.store.readingCount ≤ maxStoredReadings := by
  rcases hrecorded.perform_cases hc hperform with hsame | ⟨done, rest, hplan, hstore⟩
  · rwa [hsame.count]
  rw [hstore]
  generalize hplanned : done ++ rest = planned at hplan
  cases Store.plan_ok hplan with
  | ingest _ _ hreviewed hcapacity =>
      -- even a part of the new identities stays below what the whole was checked against
      obtain ⟨accepted, refused, rfl, rfl, rfl⟩ := List.append_eq_map_iff.mp hplanned
      have hnodup := hreviewed.nodup
      rw [List.map_append] at hnodup
      refine (Store.count_accept_all _ hnodup.of_append_left fun e he =>
        hreviewed.new e (List.mem_append_left _ he)).trans_le ?_
      rw [List.length_append] at hcapacity
      omega
  | register | rotateCredential | publishFirmware | publishConfig =>
      rcases List.append_eq_singleton_iff.mp hplanned with ⟨rfl, -⟩ | ⟨rfl, -⟩ <;> exact h
  | reopen =>
      obtain ⟨rfl, -⟩ := List.append_eq_nil_iff.mp hplanned
      exact h

/-- The bound on stored readings holds after every run. -/
theorem capacity_run (hc : c.Rereads reread) {calls : List Call}
    (hrun : fresh.run c calls = some s) : s.store.readingCount ≤ maxStoredReadings := by
  refine (run_invariant
    (fun s => Recorded c reread s ∧ s.store.readingCount ≤ maxStoredReadings)
    (fun s call s' reply hs hperform => ?_) ⟨recorded_fresh reread, Nat.zero_le _⟩ hrun).2
  obtain ⟨s'', reply', hperform', hrecorded⟩ := hs.1.perform hc call
  obtain ⟨rfl, rfl⟩ : s'' = s' ∧ reply' = reply := by
    simpa using hperform'.symm.trans hperform
  exact ⟨hrecorded, capacity_perform hc hs.1 hs.2 hperform⟩

/-- Ingest is all-or-nothing and meets its specification. On every store a run of calls leads to,
with storage writes succeeding, it succeeds exactly on acceptable batches. On success it reports the
number of distinct new identities, every envelope's reading is present under its identity, what was
stored is unchanged, nothing else is added and only health figures move; on an error neither the
maps nor the log change. The number of stored readings never exceeds its bound, so a batch of valid
duplicates is acknowledged also at capacity. -/
theorem ingest_spec (hc : c.Rereads reread) (ht : c.Total) {calls : List Call}
    (hrun : fresh.run c calls = some s) (batch : List Envelope) (receivedMs : Int64) :
    let r := s.ingest c batch receivedMs (fun _ => .complete)
    (r.2.isOk = true ↔ s.store.Acceptable c batch) ∧
      (∀ n, r.2 = .ok n →
        n = (s.store.newIdentities batch).card ∧
        (∀ e ∈ batch, ∃ p, r.1.store.lookup e.reading.identity = some p ∧
          (p.reading == e.reading) = true) ∧
        (∀ id p, s.store.lookup id = some p → r.1.store.lookup id = some p) ∧
        (∀ id p, r.1.store.lookup id = some p →
          s.store.lookup id = some p ∨ p ∈ batch ∧ p.reading.identity = id) ∧
        Store.SameRegistry s.store r.1.store) ∧
      (∀ error, r.2 = .error error → r.1 = s) ∧
      r.1.store.readingCount ≤ maxStoredReadings ∧
      (1 ≤ batch.length → batch.length ≤ maxBatch →
        (∀ e ∈ batch, s.store.Valid c e ∧ ∃ p, s.store.lookup e.reading.identity = some p ∧
          (p.reading == e.reading) = true) → r.2 = .ok 0) := by
  intro r
  have hcapacity := capacity_run hc hrun
  by_cases hacceptable : s.store.Acceptable c batch
  · obtain ⟨added, log, hreviewed, hingest⟩ := ingest_of_acceptable ht hacceptable receivedMs
    have hr : r = (⟨s.store.acceptAll receivedMs added, log⟩, .ok added.length) := hingest
    rw [hr]
    have hcount := Store.count_accept_all receivedMs hreviewed.nodup hreviewed.new
    refine ⟨⟨fun _ => hacceptable, fun _ => rfl⟩, fun n hn => ?_, by simp, ?_, ?_⟩
    · obtain rfl := Except.ok.inj hn
      exact ⟨hreviewed.length_eq, hreviewed.lookup_batch receivedMs,
        fun _ _ hp => hreviewed.lookup_stored receivedMs hp,
        fun _ _ hp => hreviewed.lookup_only receivedMs hp, Store.registry_accept_all receivedMs⟩
    · rw [hcount, hreviewed.length_eq]
      exact hacceptable.capacity
    · intro hnonempty hbounded hduplicates
      have hempty := (Store.acceptable_of_duplicates hnonempty hbounded hcapacity hduplicates).2
      rw [hreviewed.length_eq, hempty, Finset.card_empty]
  · obtain ⟨error, herror⟩ := ingest_of_not_acceptable hacceptable receivedMs fun _ => .complete
    have hr : r = (s, .error error) := herror
    rw [hr]
    refine ⟨⟨fun h => absurd h Bool.false_ne_true, fun h => absurd h hacceptable⟩, by simp,
      by simp, hcapacity, fun hnonempty hbounded hduplicates => ?_⟩
    exact absurd
      (Store.acceptable_of_duplicates hnonempty hbounded hcapacity hduplicates).1 hacceptable

/-- The rule at the first reading of a registered device, which is stored. -/
theorem ingest_spec_first :
    let reading : Reading := ⟨"d", "1", 0, 10, 1, ⟨0x3FF0000000000000⟩, "ok"⟩
    ∃ s e, fresh.run .reference [.register "d" "00" "1"] = some s ∧
      signed .reference "00" reading = .ok e ∧
      (s.ingest .reference [e] 20 fun _ => .complete).2 = .ok 1 := by
  intro reading
  obtain ⟨signature, hsigned, hvalid⟩ := Store.signed_registered reference_serializes
    (show unhex "00" = .ok [0] from rfl) "1" (r := reading) (by decide) (by simp [reading])
  let e : Envelope := ⟨protocolVersion, reading, signature⟩
  let s : Server := ⟨Store.empty.apply (.registered (.initial "d" "00" "1")),
    lineBytes (Json.print (.registered (.initial "d" "00" "1")))⟩
  have hrun : fresh.run .reference [.register "d" "00" "1"] = some s := run_register rfl rfl
  obtain ⟨hacceptable, hcard⟩ := Store.acceptable_singleton hvalid
    (NestedMap.find_empty reading.deviceId reading.key) (Nat.le_of_ble_eq_true rfl)
  refine ⟨s, e, hrun, hsigned, ?_⟩
  obtain ⟨hiff, hcount, -⟩ := ingest_spec reference_rereads reference_total hrun [e] 20
  cases hreply : (s.ingest .reference [e] 20 fun _ => .complete).2 with
  | error error =>
      have hok := hiff.mpr hacceptable
      rw [hreply] at hok
      exact absurd hok Bool.false_ne_true
  | ok n => rw [(hcount n hreply).1, hcard]

end Server

end Fieldbus.Cloud
