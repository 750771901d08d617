import Fieldbus.Cloud.Ingest

/-!
# Credentials and the readings they vouch for

The secret a device has at some point of the log decides which readings may follow. `Vouched` says
that every accepted reading carries the signature of the secret in force before it, and `Credited`
relates a device's record to the registrations and rotations that were answered with success. Both
are kept by every call (`Certified.perform`).
-/

namespace Fieldbus.Cloud

variable {c : Crates}

/-- The record a registration or a rotation puts in place. -/
def Event.record : Event → Option DeviceRecord
  | .registered d | .credentialRotated d => some d
  | _ => none

/-- The device a call gives a secret, and the secret. -/
def Call.grants : Call → Option (String × String)
  | .register deviceId secretHex _ => some (deviceId, secretHex)
  | .rotateCredential id secretHex => some (id, secretHex)
  | _ => none

/-- The call rotates the credential of the device. -/
def Call.rotates (id : String) : Call → Bool
  | .rotateCredential rotated _ => rotated == id
  | _ => false

/-- The secrets that calls gave a device, in order. -/
def secretsGiven (id : String) (calls : List Call) : List String :=
  ((calls.filterMap Call.grants).filter fun grant => grant.1 == id).map Prod.snd

/-- The number of rotations of a device. -/
def rotations (id : String) (calls : List Call) : Nat := calls.countP (Call.rotates id)

/-! ## The events of a log -/

section Reading

open ByteLines

/-- Read one line of the log: its event, or none if the line is blank. -/
def readEvent (c : Crates) (line : List UInt8) : Except Error (Option Event) :=
  match Utf8.decode line with
  | none => .error (.io "stream did not contain valid UTF-8")
  | some text =>
      if Store.isBlank text then .ok none
      else match c.fromStr text with
        | .error e => .error (.invalid e)
        | .ok event => .ok (some event)

/-- The events of a log, as they are read back. -/
def readLog (c : Crates) (log : List UInt8) : Except Error (List Event) :=
  ((lines log).mapM (readEvent c)).map List.reduceOption

/-- Replaying a line is applying its event. -/
theorem replay_line_eq (s : Store) (line : List UInt8) :
    s.replayLine c line = (readEvent c line).map fun event => event.elim s s.apply := by
  unfold Store.replayLine readEvent
  cases Utf8.decode line with
  | none => rfl
  | some text =>
      dsimp only
      split
      · rfl
      · cases c.fromStr text <;> rfl

/-- Opening a log is applying its events in order. -/
theorem open_eq_replay (log : List UInt8) :
    Store.open c log = (readLog c log).map Store.replay := by
  have hfold : ∀ (texts : List (List UInt8)) (s : Store), texts.foldlM (Store.replayLine c) s =
      (texts.mapM (readEvent c)).map fun events => events.reduceOption.foldl Store.apply s := by
    intro texts
    induction texts with
    | nil => exact fun s => rfl
    | cons text rest ih =>
        intro s
        rw [List.foldlM_cons, List.mapM_cons, replay_line_eq]
        rcases readEvent c text with error | event
        · rfl
        · show rest.foldlM (Store.replayLine c) (event.elim s s.apply) = _
          rw [ih]
          rcases hrest : rest.mapM (readEvent c) with error | events
          · rfl
          · cases event <;> rfl
  rw [Store.open, hfold, readLog]
  cases (lines log).mapM (readEvent c) <;> rfl

/-- The events of a sealed log are those that were written, with the values as they are read
back. -/
theorem read_log_sealed {reread : F64 → F64} (hc : c.Rereads reread) {events : List Event}
    {log : List UInt8} (h : Sealed c events log) :
    readLog c log = .ok (events.map (Event.mapValue reread)) := by
  obtain ⟨texts, hlogs, rfl⟩ := h
  have hlines : (texts.map Utf8.encode).mapM (readEvent c) =
      .ok (events.map fun event => some (event.mapValue reread)) := by
    induction hlogs with
    | nil => rfl
    | @cons event text _ _ hlogs _ ih =>
        have hline : readEvent c (Utf8.encode text) = .ok (some (event.mapValue reread)) := by
          simp [readEvent, hc.notBlank event text hlogs.finite hlogs.text,
            hc.fromStr event text hlogs.finite hlogs.text]
        rw [List.map_cons, List.mapM_cons, hline, ih]
        rfl
  rw [readLog, lines_sealed (logs_one_line hc hlogs), hlines]
  show Except.ok ((events.map fun event => some (event.mapValue reread)).filterMap id) = _
  rw [List.filterMap_map]
  exact congrArg Except.ok (congrFun (List.filterMap_eq_map (f := Event.mapValue reread)) events)

end Reading

namespace Store

variable {s s' : Store}

/-! ## What events do to registrations -/

/-- Registrations move only where an event puts a record. -/
theorem registration_apply (s : Store) (event : Event) (id : String) :
    (s.apply event).devices[id]?.map registration =
      ((event.record.filter fun d => d.deviceId == id).or s.devices[id]?).map registration := by
  cases event with
  | registered d | credentialRotated d =>
      simp only [apply, Event.record, Std.ExtTreeMap.getElem?_insert,
        Std.LawfulEqCmp.compare_eq_iff_eq, Option.filter_some, beq_iff_eq]
      split <;> simp
  | readingAccepted e receivedMs => exact (registry_accept s receivedMs e).devices id
  | firmwarePublished m | configPublished m => rfl

/-- Events that put no record in place leave every registration alone. -/
theorem registration_fold {events : List Event} (h : ∀ event ∈ events, event.record = none)
    (id : String) :
    (events.foldl apply s).devices[id]?.map registration = s.devices[id]?.map registration := by
  induction events generalizing s with
  | nil => rfl
  | cons event rest ih =>
      obtain ⟨hevent, hrest⟩ := List.forall_mem_cons.mp h
      rw [List.foldl_cons, ih hrest, registration_apply, hevent]
      rfl

/-- Every record is stored under its own name. -/
def Named (s : Store) : Prop := ∀ (id : String) d, s.devices[id]? = some d → d.deviceId = id

theorem Named.apply (h : s.Named) (event : Event) : (s.apply event).Named := by
  intro id d hd
  have hmap := registration_apply s event id
  rw [hd, Option.map_some, eq_comm, Option.map_eq_some_iff] at hmap
  obtain ⟨d', hd', hsame⟩ := hmap
  have hname : d'.deviceId = d.deviceId := by
    show (registration d').deviceId = (registration d).deviceId
    rw [hsame]
  rw [← hname]
  rcases Option.or_eq_some_iff.mp hd' with hrecord | ⟨-, hold⟩
  · rw [Option.filter_eq_some_iff] at hrecord
    exact beq_iff_eq.mp hrecord.2
  · exact h id d' hold

/-- What events amount to is stored under its own names. -/
theorem named_fold (h : s.Named) (events : List Event) : (events.foldl apply s).Named := by
  induction events generalizing s with
  | nil => exact h
  | cons event rest ih => exact ih (h.apply event)

theorem named_replay (events : List Event) : (replay events).Named :=
  named_fold (fun id d hd => by simp [empty] at hd) events

/-! ## What a secret vouches for -/

/-- The envelope carries the signature of the secret its device has. -/
def Authentic (c : Crates) (s : Store) (e : Envelope) : Prop :=
  ∃ d, s.devices[e.reading.deviceId]? = some d ∧ sign c d.secretHex e.reading = .ok e.signature

/-- A store with the same registrations has the same secrets. -/
theorem Authentic.of_registration {e : Envelope} (h : s.Authentic c e)
    (hsame : s'.devices[e.reading.deviceId]?.map registration =
      s.devices[e.reading.deviceId]?.map registration) : s'.Authentic c e := by
  obtain ⟨d, hd, hsign⟩ := h
  rw [hd, Option.map_some, Option.map_eq_some_iff] at hsame
  obtain ⟨d', hd', hregistration⟩ := hsame
  have hsecret : d'.secretHex = d.secretHex := by
    show (registration d').secretHex = (registration d).secretHex
    rw [hregistration]
  exact ⟨d', hd', hsecret ▸ hsign⟩

/-- Every accepted reading among the events is authentic where it is accepted. -/
def Vouched (c : Crates) : Store → List Event → Prop
  | _, [] => True
  | s, event :: rest =>
      (∀ e receivedMs, event = .readingAccepted e receivedMs → s.Authentic c e) ∧
        Vouched c (s.apply event) rest

theorem vouched_append {events more : List Event} :
    Vouched c s (events ++ more) ↔ Vouched c s events ∧ Vouched c (events.foldl apply s) more := by
  induction events generalizing s with
  | nil => simp [Vouched]
  | cons event rest ih => simp only [List.cons_append, Vouched, ih, List.foldl_cons, and_assoc]

/-- The events are authentic on every store with the same devices. -/
theorem Vouched.of_devices {events : List Event} (h : Vouched c s events)
    (hsame : s.devices = s'.devices) : Vouched c s' events := by
  induction events generalizing s s' with
  | nil => trivial
  | cons event rest ih =>
      refine ⟨fun e receivedMs heq => ?_, ih h.2 (devices_apply hsame event)⟩
      have hauthentic := h.1 e receivedMs heq
      rwa [Authentic, hsame] at hauthentic

/-- The accepted envelopes of a checked batch are authentic one after the other. -/
theorem vouched_accepted (receivedMs : Int64) {envelopes : List Envelope}
    (h : ∀ e ∈ envelopes, s.Authentic c e) :
    Vouched c s (envelopes.map fun e => .readingAccepted e receivedMs) := by
  induction envelopes generalizing s with
  | nil => trivial
  | cons e rest ih =>
      obtain ⟨he, hrest⟩ := List.forall_mem_cons.mp h
      refine ⟨fun e' _ heq => (Event.readingAccepted.inj heq).1 ▸ he, ih fun e' he' => ?_⟩
      exact (hrest e' he').of_registration ((registry_accept s receivedMs e).devices _)

/-- What a call plans is authentic. -/
theorem plan_vouched {call : Call} {events : List Event} (h : s.plan c call = .ok events) :
    Vouched c s events := by
  cases plan_ok h with
  | ingest _ _ hreviewed _ =>
      exact vouched_accepted _ fun e he => (hreviewed.valid e (hreviewed.mem e he)).signed
  | register | rotateCredential | publishFirmware | publishConfig => simp [Vouched]
  | reopen => trivial

/-! ## The credentials of a history -/

/-- A device's credential version counts its rotations and its secret is the one given last. A
device without a record has had no rotation. -/
structure Credited (s : Store) (answered : List Call) : Prop where
  absent : ∀ id : String, s.devices[id]? = none → rotations id answered = 0
  version : ∀ (id : String) d, s.devices[id]? = some d →
    d.credentialVersion = UInt64.ofNat (1 + rotations id answered)
  secret : ∀ (id : String) d, s.devices[id]? = some d →
    (secretsGiven id answered).getLast? = some d.secretHex

variable {answered : List Call}

/-- Stores with the same registrations have the same credentials. -/
theorem Credited.of_registration (h : s.Credited answered)
    (hsame : ∀ id : String, s'.devices[id]?.map registration = s.devices[id]?.map registration) :
    s'.Credited answered := by
  have hold : ∀ (id : String) d', s'.devices[id]? = some d' →
      ∃ d, s.devices[id]? = some d ∧ registration d = registration d' := by
    intro id d' hd'
    have hmap := hsame id
    rwa [hd', Option.map_some, eq_comm, Option.map_eq_some_iff] at hmap
  refine ⟨fun id hnone => h.absent id ?_, fun id d' hd' => ?_, fun id d' hd' => ?_⟩
  · have hmap := hsame id
    rwa [hnone, Option.map_none, eq_comm, Option.map_eq_none_iff] at hmap
  · obtain ⟨d, hd, hregistration⟩ := hold id d' hd'
    show (registration d').credentialVersion = _
    rw [← hregistration]
    exact h.version id d hd
  · obtain ⟨d, hd, hregistration⟩ := hold id d' hd'
    show _ = some (registration d').secretHex
    rw [← hregistration]
    exact h.secret id d hd

end Store

/-- A call that gives no secret leaves the counts alone. -/
theorem counts_of_grants_none {call : Call} (h : call.grants = none) (id : String)
    (answered : List Call) :
    rotations id (answered ++ [call]) = rotations id answered ∧
      secretsGiven id (answered ++ [call]) = secretsGiven id answered := by
  cases call with
  | register | rotateCredential => simp [Call.grants] at h
  | ingest | publishFirmware | publishConfig | reopen =>
      simp [rotations, secretsGiven, Call.rotates, Call.grants]

/-- A call that gives a device a secret adds it to that device's secrets. -/
theorem secretsGiven_of_grants {call : Call} {device secretHex : String}
    (h : call.grants = some (device, secretHex)) (id : String) (answered : List Call) :
    secretsGiven id (answered ++ [call]) =
      secretsGiven id answered ++ if device = id then [secretHex] else [] := by
  by_cases hid : device = id <;> simp [secretsGiven, h, hid]

namespace Store

variable {s : Store} {answered : List Call} {call : Call}

/-- Giving a device a record with the next version and the secret of the call keeps the counts. -/
theorem Credited.grant (h : s.Credited answered) {d : DeviceRecord}
    (hgrants : call.grants = some (d.deviceId, d.secretHex))
    (hothers : ∀ id, id ≠ d.deviceId → call.rotates id = false)
    (hversion : d.credentialVersion =
      UInt64.ofNat (1 + rotations d.deviceId (answered ++ [call]))) :
    Credited { s with devices := s.devices.insert d.deviceId d } (answered ++ [call]) := by
  have hsecrets := secretsGiven_of_grants hgrants
  have hrotations : ∀ id, id ≠ d.deviceId →
      rotations id (answered ++ [call]) = rotations id answered := by
    intro id hid
    simp [rotations, hothers id hid]
  have hlookup : ∀ id : String, (s.devices.insert d.deviceId d)[id]? =
      if d.deviceId = id then some d else s.devices[id]? := by
    intro id
    simp only [Std.ExtTreeMap.getElem?_insert, Std.LawfulEqCmp.compare_eq_iff_eq]
  refine ⟨fun id hnone => ?_, fun id d' hd' => ?_, fun id d' hd' => ?_⟩
  · rw [hlookup] at hnone
    split at hnone
    · simp at hnone
    · rename_i hid
      rw [hrotations id (Ne.symm hid)]
      exact h.absent id hnone
  · rw [hlookup] at hd'
    split at hd'
    · rename_i hid
      obtain rfl := Option.some.inj hd'
      rw [← hid, hversion]
    · rename_i hid
      rw [hrotations id (Ne.symm hid)]
      exact h.version id d' hd'
  · rw [hlookup] at hd'
    rw [hsecrets]
    split at hd'
    · rename_i hid
      obtain rfl := Option.some.inj hd'
      rw [if_pos hid, List.getLast?_append_of_ne_nil _ (by simp), List.getLast?_singleton]
    · rename_i hid
      rw [if_neg hid, List.append_nil]
      exact h.secret id d' hd'

/-- A call that gives no secret plans no record. -/
theorem plan_record_none {events : List Event} (hgrants : call.grants = none)
    (h : s.plan c call = .ok events) : ∀ event ∈ events, event.record = none := by
  cases plan_ok h with
  | register | rotateCredential => simp [Call.grants] at hgrants
  | ingest => simp [Event.record]
  | publishFirmware | publishConfig => simp [Event.record]
  | reopen => simp

/-- What a call that fails has applied puts no record in place: a plan with one has nothing else. -/
theorem plan_record_none_of_rest {done rest : List Event} (h : s.plan c call = .ok (done ++ rest))
    (hrest : rest ≠ []) : ∀ event ∈ done, event.record = none := by
  have hsingle : ∀ event, done ++ rest = [event] → done = [] := by
    intro event heq
    rcases List.append_eq_singleton_iff.mp heq with ⟨hdone, -⟩ | ⟨-, hnil⟩
    · exact hdone
    · exact absurd hnil hrest
  generalize hplanned : done ++ rest = planned at h
  cases hcall : call.grants with
  | none =>
      intro event hevent
      exact plan_record_none hcall h event (hplanned ▸ List.mem_append_left _ hevent)
  | some grant =>
      cases plan_ok h with
      | register | rotateCredential => simp [hsingle _ hplanned]
      | ingest | publishFirmware | publishConfig | reopen => simp [Call.grants] at hcall

/-- A call answered with success keeps the counts. -/
theorem Credited.answer (h : s.Credited answered) (hnamed : s.Named) {events : List Event}
    (hplan : s.plan c call = .ok events) :
    (events.foldl apply s).Credited (answered ++ [call]) := by
  cases hcall : call.grants with
  | none =>
      have hsame := h.of_registration (registration_fold (plan_record_none hcall hplan))
      have hcounts := fun id => counts_of_grants_none hcall id answered
      exact ⟨fun id hnone => (hcounts id).1 ▸ hsame.absent id hnone,
        fun id d hd => (hcounts id).1 ▸ hsame.version id d hd,
        fun id d hd => (hcounts id).2 ▸ hsame.secret id d hd⟩
  | some grant =>
      cases plan_ok hplan with
      | @register deviceId secretHex firmwareVersion _ hcontains _ =>
          have habsent := h.absent deviceId
            (Std.ExtTreeMap.getElem?_eq_none_of_contains_eq_false hcontains)
          refine h.grant (d := .initial deviceId secretHex firmwareVersion) rfl
            (fun _ _ => rfl) ?_
          rw [rotations] at habsent ⊢
          simp [DeviceRecord.initial, Call.rotates, habsent]
      | @rotateCredential id secretHex _ d hd _ =>
          obtain rfl := hnamed id d hd
          refine h.grant (d := d.rotated secretHex) rfl
            (fun id hid => by simpa [Call.rotates, DeviceRecord.rotated] using Ne.symm hid) ?_
          have hversion := h.version d.deviceId d hd
          rw [rotations] at hversion ⊢
          simp only [DeviceRecord.rotated, hversion, List.countP_append, List.countP_singleton,
            Call.rotates, beq_self_eq_true, if_true]
          rw [← Nat.add_assoc, UInt64.ofNat_add (1 + _)]
          rfl
      | ingest | publishFirmware | publishConfig | reopen => simp [Call.grants] at hcall

end Store

namespace Server

/-- A run of calls whose storage writes all succeed, with the calls that were answered with
success. -/
def history (c : Crates) (start : Server × List Call) (calls : List Call) :
    Option (Server × List Call) :=
  calls.foldlM (fun r call => (r.1.perform c call fun _ => .complete).map fun out =>
    (out.1, if out.2.isOk then r.2 ++ [call] else r.2)) start

/-- What holds of a store process, of the events in its log and of the calls it has answered with
success. -/
structure Certified (c : Crates) (reread : F64 → F64) (events : List Event) (answered : List Call)
    (s : Server) : Prop where
  complete : Sealed c events s.log
  replayed : s.store.AsWritten reread (Store.replay events)
  vouched : Store.Vouched c .empty events
  credited : s.store.Credited answered

variable {reread : F64 → F64}

theorem certified_fresh (c : Crates) (reread : F64 → F64) : Certified c reread [] [] .fresh where
  complete := ⟨[], .nil, rfl⟩
  replayed := .refl reread _
  vouched := trivial
  credited := by constructor <;> simp [fresh, Store.empty, rotations]

/-- A restart keeps it: no event is added and records are the same. -/
theorem Certified.reopen (hc : c.Rereads reread) {s : Server} {events : List Event}
    {answered : List Call} (h : Certified c reread events answered s) :
    ∃ s', s.perform c .reopen (fun _ => .complete) = some (s', .ok ()) ∧
      Certified c reread events (answered ++ [.reopen]) s' := by
  refine ⟨_, h.complete.reopen hc _, h.complete, .read_back reread _, h.vouched, ?_⟩
  have hsame := h.credited.of_registration fun id => congrArg (Option.map Store.registration)
    (congrArg (fun devices => devices[id]?) h.replayed.same.devices.symm)
  have hcounts := fun id => counts_of_grants_none (rfl : Call.reopen.grants = none) id answered
  exact ⟨fun id hnone => (hcounts id).1 ▸ hsame.absent id hnone,
    fun id d hd => (hcounts id).1 ▸ hsame.version id d hd,
    fun id d hd => (hcounts id).2 ▸ hsame.secret id d hd⟩

/-- Every reading that the call stores has a value that is read back as it was. -/
def StoresKept (c : Crates) (reread : F64 → F64) (s : Server) (call : Call) : Prop :=
  ∀ batch receivedMs, call = .ingest batch receivedMs → s.store.Acceptable c batch →
    ∀ e ∈ batch, s.store.lookup e.reading.identity = none → e.mapValue reread = e

/-- What a call plans whose readings are read back as they were is read back as it was. -/
theorem plan_kept {s : Server} {call : Call} {planned : List Event}
    (hcall : s.StoresKept c reread call) (h : s.store.plan c call = .ok planned) :
    ∀ event ∈ planned, event.Kept reread := by
  intro event hevent
  cases call with
  | ingest batch receivedMs =>
      obtain ⟨hacceptable, hplanned⟩ := Store.acceptable_of_plan h
      obtain ⟨e, he, hnew, rfl⟩ := hplanned event hevent
      have hkept := hcall batch receivedMs rfl hacceptable e he hnew
      rw [Event.Kept, Event.mapValue, hkept]
  | register | rotateCredential | publishFirmware | publishConfig | reopen =>
      cases Store.plan_ok h
      simp_all [Event.Kept, Event.mapValue]

/-- Every call keeps it, and adds events that are read back as they were if the call stores only
such readings. -/
theorem Certified.perform (hc : c.Rereads reread) {s : Server} {events : List Event}
    {answered : List Call} (h : Certified c reread events answered s) (call : Call) :
    ∃ s' reply more, s.perform c call (fun _ => .complete) = some (s', reply) ∧
      Certified c reread (events ++ more) (if reply.isOk then answered ++ [call] else answered) s' ∧
      (s.StoresKept c reread call → ∀ event ∈ more, event.Kept reread) := by
  by_cases hcall : call = .reopen
  · subst hcall
    obtain ⟨s', hperform, hnext⟩ := h.reopen hc
    exact ⟨s', .ok (), [], hperform, by simpa [Except.isOk, Except.toBool] using hnext, by simp⟩
  obtain ⟨s', reply, done, hperform, hlog, hfold, hcases⟩ := h.complete.perform hcall
  have hreplayed : s'.store.AsWritten reread (Store.replay (events ++ done)) := by
    rw [hfold, replay_append]
    exact h.replayed.fold done
  have hdevices := h.replayed.same.devices
  have hnamed : s.store.Named := by
    rw [Store.Named, hdevices]
    exact Store.named_replay events
  refine ⟨s', reply, done, hperform, ⟨hlog, hreplayed, ?_, ?_⟩, fun hkept => ?_⟩
  · refine Store.vouched_append.mpr ⟨h.vouched, ?_⟩
    rcases hcases with ⟨error, -, rfl⟩ | ⟨rest, hplan, -⟩
    · trivial
    · exact (Store.vouched_append.mp (Store.plan_vouched hplan)).1.of_devices hdevices
  · rw [hfold]
    rcases hcases with ⟨error, rfl, rfl⟩ | ⟨rest, hplan, hreply⟩
    · exact h.credited
    · cases reply with
      | ok u =>
          obtain rfl := hreply.mp rfl
          rw [List.append_nil] at hplan
          exact h.credited.answer hnamed hplan
      | error e =>
          have hrest : rest ≠ [] := fun hnil => by simpa using hreply.mpr hnil
          exact h.credited.of_registration
            (Store.registration_fold (Store.plan_record_none_of_rest hplan hrest))
  · rcases hcases with ⟨error, -, rfl⟩ | ⟨rest, hplan, -⟩
    · simp
    · exact fun event hevent => plan_kept hkept hplan event (List.mem_append_left _ hevent)

/-- Every call of the run stores only readings whose values are read back as they were. -/
def RunStoresKept (c : Crates) (reread : F64 → F64) : Server → List Call → Prop
  | _, [] => True
  | s, call :: rest => s.StoresKept c reread call ∧ ∀ s' reply,
      s.perform c call (fun _ => .complete) = some (s', reply) → RunStoresKept c reread s' rest

/-- Every run keeps it. -/
theorem Certified.history (hc : c.Rereads reread) {s : Server} {events : List Event}
    {answered : List Call} (h : Certified c reread events answered s) (calls : List Call) :
    ∃ s' answered' events', Server.history c (s, answered) calls = some (s', answered') ∧
      Certified c reread events' answered' s' ∧ ((∀ event ∈ events, event.Kept reread) →
        s.RunStoresKept c reread calls → ∀ event ∈ events', event.Kept reread) := by
  induction calls generalizing s events answered with
  | nil => exact ⟨s, answered, events, rfl, h, fun hkept _ => hkept⟩
  | cons call rest ih =>
      obtain ⟨s₁, reply, more, hperform, hnext, hmore⟩ := h.perform hc call
      obtain ⟨s', answered', events', hrun, hfinal, hkept⟩ := ih hnext
      refine ⟨s', answered', events', ?_, hfinal, fun hevents hcalls => ?_⟩
      · rw [Server.history, List.foldlM_cons, hperform]
        exact hrun
      · exact hkept (List.forall_mem_append.mpr ⟨hevents, hmore hcalls.1⟩)
          (hcalls.2 s₁ reply hperform)

/-- Every stored reading was authenticated by the credential then in force. After any run of calls
and restarts whose storage writes succeed: if the readings that the run stored have values that are
read back as they were, then the log holds what the live store amounts to, and each accepted reading
in it carries the signature of the secret its device has in the store that the log before it amounts
to. In every run, a device's credential version is one more than the number of its successful
rotations and its secret is the one given last, and no call but a registration or a rotation changes
a device's secret, credential version, firmware version or config version. -/
theorem readings_authenticated (hc : c.Rereads reread) (calls : List Call) :
    ∃ s answered events, Server.history c (fresh, []) calls = some (s, answered) ∧
      readLog c s.log = .ok events ∧
      (fresh.RunStoresKept c reread calls → s.store = Store.replay events ∧
        ∀ before e receivedMs after, events = before ++ .readingAccepted e receivedMs :: after →
          ∃ d, (Store.replay before).devices[e.reading.deviceId]? = some d ∧
            sign c d.secretHex e.reading = .ok e.signature) ∧
      (∀ (id : String) d, s.store.devices[id]? = some d →
        d.credentialVersion = UInt64.ofNat (1 + rotations id answered) ∧
        (secretsGiven id answered).getLast? = some d.secretHex) ∧
      ∀ call s' reply, call.grants = none →
        s.perform c call (fun _ => .complete) = some (s', reply) →
        ∀ id : String, s'.store.devices[id]?.map Store.registration =
          s.store.devices[id]?.map Store.registration := by
  obtain ⟨s, answered, events, hrun, h, hkept⟩ := (certified_fresh c reread).history hc calls
  refine ⟨s, answered, _, hrun, read_log_sealed hc h.complete, fun hcalls => ?_,
    fun id d hd => ⟨h.credited.version id d hd, h.credited.secret id d hd⟩, ?_⟩
  · have hevents := hkept (by simp) hcalls
    rw [List.map_congr_left (g := id) hevents, List.map_id]
    refine ⟨h.replayed.eq_of_kept (replay_kept hevents), ?_⟩
    rintro before e receivedMs after rfl
    exact (Store.vouched_append.mp h.vouched).2.1 e receivedMs rfl
  · intro call s' reply hgrants hperform
    have hrecorded : Recorded c reread s := ⟨events, h.complete, h.replayed⟩
    rcases hrecorded.perform_cases hc hperform with hsame | ⟨done, rest, hplan, hstore⟩
    · rw [hsame.devices]
      exact fun _ => rfl
    · rw [hstore]
      exact Store.registration_fold fun event hevent =>
        Store.plan_record_none hgrants hplan event (List.mem_append_left _ hevent)

/-- Calls that store only readings that are read back as they were, whatever store they meet. -/
theorem run_stores_kept_of {calls : List Call}
    (h : ∀ call ∈ calls, ∀ s : Server, s.StoresKept c reread call) (s : Server) :
    s.RunStoresKept c reread calls := by
  induction calls generalizing s with
  | nil => trivial
  | cons call rest ih =>
      obtain ⟨hcall, hrest⟩ := List.forall_mem_cons.mp h
      exact ⟨hcall s, fun s' _ _ => ih hrest s'⟩

/-- The rule at a stored reading, a rotation and a restart. -/
theorem readings_authenticated_rotated :
    ∃ e, signed .reference "00" ⟨"d", "1", 0, 10, 1, ⟨0x3FF0000000000000⟩, "ok"⟩ = .ok e ∧
      let calls : List Call :=
        [.register "d" "00" "1", .ingest [e] 20, .rotateCredential "d" "01", .reopen]
      ∃ s before after, Server.history .reference (fresh, []) calls = some (s, calls) ∧
        readLog .reference s.log = .ok (before ++ .readingAccepted e 20 :: after) ∧
        (∃ d, (Store.replay before).devices["d"]? = some d ∧
          sign .reference d.secretHex e.reading = .ok e.signature) ∧
        ∀ d, s.store.devices["d"]? = some d →
          d.secretHex = "01" ∧ d.credentialVersion = 2 := by
  obtain ⟨e, s₁, hsigned, hreading, hregister, -, hstored, hstore, hsealed⟩ :=
    first_reading (r := ⟨"d", "1", 0, 10, 1, ⟨0x3FF0000000000000⟩, "ok"⟩) (by decide) (by simp) 20
  refine ⟨e, hsigned, ?_⟩
  intro calls
  set registered : Event := .registered (.initial "d" "00" "1")
  let d : DeviceRecord := (DeviceRecord.initial "d" "00" "1").seen e.reading 20
  let rotated : Event := .credentialRotated (d.rotated "01")
  have hdevice : s₁.store.devices["d"]? = some d := by
    rw [hstore]
    refine (Store.devices_accept _ _ _ "d").trans ?_
    rw [if_pos (by rw [hreading])]
    simp [registered, Store.apply, DeviceRecord.initial, d]
  have hplan : s₁.store.plan .reference (.rotateCredential "d" "01") = .ok [rotated] := by
    rw [Store.plan, hdevice]
    rfl
  have hrotated := perform_single (c := .reference) (by simp) hplan rfl
  have hsealed' : Sealed .reference [registered, .readingAccepted e 20, rotated]
      (s₁.log ++ lineBytes (Json.print rotated)) := hsealed.append ⟨trivial, rfl⟩
  have hrestarted := hsealed'.reopen (s := ⟨s₁.store.apply rotated, _⟩) reference_rereads
    fun _ => .complete
  have hkept : (Event.readingAccepted e 20).Kept Json.reread :=
    Event.kept_accepted (by rw [hreading]; exact Json.reread_one) 20
  obtain ⟨s, answered, events, hrun, hread, hauthentic, hcredit, -⟩ :=
    readings_authenticated reference_rereads calls
  obtain ⟨rfl, rfl⟩ : s = _ ∧ answered = calls := by
    simpa [history, calls, hregister, hstored, hrotated, hrestarted, Except.isOk, Except.toBool]
      using hrun.symm
  have hevents : events = [registered, .readingAccepted e 20, rotated] := by
    have hwritten := hread.symm.trans (read_log_sealed reference_rereads hsealed')
    rw [Except.ok.inj hwritten, List.map_cons, List.map_cons, hkept]
    rfl
  have hstores : fresh.RunStoresKept .reference Json.reread calls := by
    refine run_stores_kept_of (fun call hcall s => ?_) fresh
    rintro batch receivedMs rfl - e' he' -
    simp only [calls, List.mem_cons, List.not_mem_nil, reduceCtorEq, Call.ingest.injEq, false_or,
      or_false] at hcall
    obtain ⟨rfl, -⟩ := hcall
    obtain rfl := List.mem_singleton.mp he'
    exact Envelope.map_value_eq (by rw [hreading]; exact Json.reread_one)
  obtain ⟨d', hd', hsign⟩ := (hauthentic hstores).2 [registered] e 20 [rotated] hevents
  refine ⟨_, [registered], [rotated], hrun, hread.trans (congrArg _ hevents), ⟨d', ?_, hsign⟩,
    fun d'' hd'' => ?_⟩
  · rw [hreading] at hd'
    exact hd'
  · obtain ⟨hversion, hsecret⟩ := hcredit "d" d'' hd''
    exact ⟨(Option.some.inj hsecret).symm, hversion⟩

/-- A log that is read back with another value: the accepted reading in it does not carry the
signature of the only secret its device ever had. -/
theorem log_signature_differs :
    ∃ e, signed .reference "00" ⟨"d", "1", 0, 10, 1, ⟨0x403B294CAEEF042E⟩, "ok"⟩ = .ok e ∧
      let calls : List Call := [.register "d" "00" "1", .ingest [e] 20]
      ∃ s before accepted d, Server.history .reference (fresh, []) calls = some (s, calls) ∧
        readLog .reference s.log = .ok (before ++ [.readingAccepted accepted 20]) ∧
        (Store.replay before).devices[accepted.reading.deviceId]? = some d ∧
        sign .reference d.secretHex accepted.reading ≠ .ok accepted.signature := by
  obtain ⟨e, s, hsigned, hreading, hregister, -, hstored, -, hsealed⟩ := first_reading
    (r := ⟨"d", "1", 0, 10, 1, ⟨0x403B294CAEEF042E⟩, "ok"⟩) (by decide) (by simp) 20
  refine ⟨e, hsigned, ?_⟩
  intro calls
  have hread := read_log_sealed reference_rereads hsealed
  have hother : (e.mapValue Json.reread).reading =
      ⟨"d", "1", 0, 10, 1, ⟨0x403B294CAEEF042D⟩, "ok"⟩ := by
    rw [Envelope.mapValue, hreading, Json.reread_below]
  refine ⟨s, [.registered (.initial "d" "00" "1")], e.mapValue Json.reread,
    .initial "d" "00" "1", ?_, hread, ?_, ?_⟩
  · simp [history, calls, hregister, hstored, Except.isOk, Except.toBool]
  · rw [hother]
    simp [Store.replay, Store.apply, DeviceRecord.initial]
  · rw [hother]
    intro hsign
    obtain ⟨-, -, hwritten⟩ := signed_ok_iff.mp hsigned
    have hdiffer :
        (sign .reference "00" ⟨"d", "1", 0, 10, 1, ⟨0x403B294CAEEF042D⟩, "ok"⟩).toOption ≠
          (sign .reference "00" ⟨"d", "1", 0, 10, 1, ⟨0x403B294CAEEF042E⟩, "ok"⟩).toOption := by
      decide +kernel
    refine hdiffer ?_
    rw [show sign .reference "00" ⟨"d", "1", 0, 10, 1, ⟨0x403B294CAEEF042D⟩, "ok"⟩ = _ from hsign,
      hwritten]
    rfl

end Server

end Fieldbus.Cloud
