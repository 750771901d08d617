import Fieldbus.Cloud.Health
import Fieldbus.Cloud.Ingest
import Fieldbus.Cloud.Replay

/-!
# The dashboard as a view of the log

What the dashboard shows can be read off the log: the registered devices, and for each the last of
its readings that was accepted (`dashboard_of_log`).
-/

namespace Fieldbus.Cloud

/-- The device that an event registers. -/
def Event.registers : Event → Option String
  | .registered d => some d.deviceId
  | _ => none

/-- What an event tells of a device: when which of its readings came in. -/
def Event.hears (id : String) : Event → Option (Int64 × Reading)
  | .readingAccepted e receivedMs =>
      if e.reading.deviceId = id then some (receivedMs, e.reading) else none
  | _ => none

/-- The last reading of a device. -/
def lastReading (events : List Event) (id : String) : Option (Int64 × Reading) :=
  (events.filterMap (Event.hears id)).getLast?

/-- A record shows the given reading as the last one. -/
structure DeviceRecord.Shows (d : DeviceRecord) (last : Option (Int64 × Reading)) : Prop where
  lastSeenMs : d.lastSeenMs = last.map Prod.fst
  lastSequence : d.lastSequence = last.map fun r => r.2.sequence
  bootCounter : d.bootCounter = last.map fun r => r.2.bootCounter

/-- The devices of a store are those of the log. -/
structure Viewed (events : List Event) (s : Store) : Prop where
  named : ∀ (id : String) (d : DeviceRecord), s.devices[id]? = some d → d.deviceId = id
  registered : ∀ id, id ∈ s.devices ↔ id ∈ events.filterMap Event.registers
  once : (events.filterMap Event.registers).Nodup
  unheard : ∀ id, id ∉ s.devices → lastReading events id = none
  shows : ∀ (id : String) (d : DeviceRecord), s.devices[id]? = some d →
    d.Shows (lastReading events id)

/-- An event that can be planned. -/
inductive Event.Fits (s : Store) : Event → Prop where
  | registered {d : DeviceRecord} : d.deviceId ∉ s.devices → d.Shows none → Fits s (.registered d)
  | credentialRotated {d : DeviceRecord} {secretHex : String} :
      s.devices[d.deviceId]? = some d → Fits s (.credentialRotated (d.rotated secretHex))
  | readingAccepted {e : Envelope} {receivedMs : Int64} :
      e.reading.deviceId ∈ s.devices → Fits s (.readingAccepted e receivedMs)
  | firmwarePublished {m : FirmwareMetadata} : Fits s (.firmwarePublished m)
  | configPublished {m : ConfigMetadata} : Fits s (.configPublished m)

variable {events : List Event} {s : Store}

theorem viewed_empty : Viewed [] .empty where
  named _ _ h := by simp [Store.empty] at h
  registered _ := by simp [Store.empty]
  once := .nil
  unheard _ _ := rfl
  shows _ _ h := by simp [Store.empty] at h

/-- One more event. -/
theorem last_reading_append (event : Event) (id : String) :
    lastReading (events ++ [event]) id = (event.hears id).or (lastReading events id) := by
  rw [lastReading, List.filterMap_append]
  cases h : event.hears id <;> simp [h, lastReading]

/-- The registrations with one more event. -/
theorem registers_append (event : Event) :
    (events ++ [event]).filterMap Event.registers =
      events.filterMap Event.registers ++ event.registers.toList := by
  rw [List.filterMap_append]
  cases h : event.registers <;> simp [h]

/-- An event that is about no device. -/
theorem Viewed.keep (h : Viewed events s) {event : Event}
    (hdevices : (s.apply event).devices = s.devices) (hregisters : event.registers = none)
    (hhears : ∀ id, event.hears id = none) : Viewed (events ++ [event]) (s.apply event) := by
  have hlast (id : String) : lastReading (events ++ [event]) id = lastReading events id := by
    rw [last_reading_append, hhears, Option.none_or]
  have hnames : (events ++ [event]).filterMap Event.registers =
      events.filterMap Event.registers := by
    rw [registers_append, hregisters, Option.toList_none, List.append_nil]
  refine ⟨?_, ?_, ?_, ?_, ?_⟩
  · rw [hdevices]
    exact h.named
  · rw [hdevices, hnames]
    exact h.registered
  · rw [hnames]
    exact h.once
  · simp only [hdevices, hlast]
    exact h.unheard
  · simp only [hdevices, hlast]
    exact h.shows

/-- An event about one device, which it registers or knows. -/
theorem Viewed.insert (h : Viewed events s) {event : Event} {d : DeviceRecord}
    (hdevices : (s.apply event).devices = s.devices.insert d.deviceId d)
    (hregisters : (event.registers = some d.deviceId ∧ d.deviceId ∉ s.devices) ∨
      (event.registers = none ∧ d.deviceId ∈ s.devices))
    (hother : ∀ id, id ≠ d.deviceId → event.hears id = none)
    (hshows : d.Shows (lastReading (events ++ [event]) d.deviceId)) :
    Viewed (events ++ [event]) (s.apply event) := by
  have hmem (id : String) :
      id ∈ s.devices.insert d.deviceId d ↔ id = d.deviceId ∨ id ∈ s.devices := by
    rw [Std.ExtTreeMap.mem_insert, Std.LawfulEqCmp.compare_eq_iff_eq, eq_comm]
  have hlast {id : String} (hne : id ≠ d.deviceId) :
      lastReading (events ++ [event]) id = lastReading events id := by
    rw [last_reading_append, hother id hne, Option.none_or]
  have hlookup {id : String} {d' : DeviceRecord} (hd' : (s.apply event).devices[id]? = some d') :
      (id = d.deviceId ∧ d' = d) ∨ (id ≠ d.deviceId ∧ s.devices[id]? = some d') := by
    rw [hdevices, Std.ExtTreeMap.getElem?_insert] at hd'
    split at hd'
    · rename_i heq
      exact .inl ⟨(Std.LawfulEqCmp.eq_of_compare heq).symm, (Option.some.inj hd').symm⟩
    · rename_i hne
      refine .inr ⟨?_, hd'⟩
      rintro rfl
      exact hne Std.ReflCmp.compare_self
  refine ⟨fun id d' hd' => ?_, fun id => ?_, ?_, fun id hid => ?_, fun id d' hd' => ?_⟩
  · obtain ⟨rfl, rfl⟩ | ⟨-, hold⟩ := hlookup hd'
    · rfl
    · exact h.named id d' hold
  · rw [hdevices, hmem, registers_append, List.mem_append, ← h.registered id]
    obtain ⟨hname, -⟩ | ⟨hnone, hknown⟩ := hregisters
    · rw [hname, Option.toList_some, List.mem_singleton, or_comm]
    · rw [hnone, Option.toList_none]
      simp only [List.not_mem_nil, or_false, or_iff_right_iff_imp]
      rintro rfl
      exact hknown
  · rw [registers_append]
    obtain ⟨hname, hnew⟩ | ⟨hnone, -⟩ := hregisters
    · rw [hname, Option.toList_some]
      refine List.nodup_append.mpr ⟨h.once, List.nodup_singleton _, fun a ha b hb => ?_⟩
      obtain rfl := List.mem_singleton.mp hb
      rintro rfl
      exact hnew ((h.registered _).mpr ha)
    · rw [hnone, Option.toList_none, List.append_nil]
      exact h.once
  · rw [hdevices, hmem, not_or] at hid
    rw [hlast hid.1]
    exact h.unheard id hid.2
  · obtain ⟨rfl, rfl⟩ | ⟨hne, hold⟩ := hlookup hd'
    · exact hshows
    · rw [hlast hne]
      exact h.shows id d' hold

/-- An event that fits keeps the view. -/
theorem Viewed.apply (h : Viewed events s) {event : Event} (hfits : event.Fits s) :
    Viewed (events ++ [event]) (s.apply event) := by
  cases hfits with
  | registered hnew hshows =>
      refine h.insert rfl (.inl ⟨rfl, hnew⟩) (fun _ _ => rfl) ?_
      rw [last_reading_append, h.unheard _ hnew]
      exact hshows
  | credentialRotated hd =>
      have hknown := Std.ExtTreeMap.mem_iff_isSome_getElem?.mpr (by rw [hd]; rfl)
      refine h.insert rfl (.inr ⟨rfl, hknown⟩) (fun _ _ => rfl) ?_
      rw [last_reading_append]
      obtain ⟨hseen, hsequence, hboot⟩ := h.shows _ _ hd
      exact ⟨hseen, hsequence, hboot⟩
  | @readingAccepted e receivedMs hmem =>
      obtain ⟨d, hd⟩ := Option.isSome_iff_exists.mp
        (Std.ExtTreeMap.mem_iff_isSome_getElem?.mp hmem)
      have hname : d.deviceId = e.reading.deviceId := h.named _ d hd
      refine h.insert (d := { d with
          lastSeenMs := some receivedMs
          lastSequence := some e.reading.sequence
          bootCounter := some e.reading.bootCounter }) ?_ (.inr ⟨rfl, hname ▸ hmem⟩)
        (fun id hid => if_neg fun (heq : e.reading.deviceId = id) =>
          hid (heq.symm.trans hname.symm)) ?_
      · simp only [Store.apply, hd, hname]
      · rw [last_reading_append, Event.hears, if_pos hname.symm]
        exact ⟨rfl, rfl, rfl⟩
  | firmwarePublished => exact h.keep rfl rfl fun _ => rfl
  | configPublished => exact h.keep rfl rfl fun _ => rfl

/-! ## Calls -/

/-- What a call plans fits one by one. -/
theorem Viewed.readings {receivedMs : Int64} {done : List Envelope} (h : Viewed events s)
    (hknown : ∀ e ∈ done, e.reading.deviceId ∈ s.devices) :
    Viewed (events ++ done.map fun e => .readingAccepted e receivedMs)
      ((done.map fun e => Event.readingAccepted e receivedMs).foldl Store.apply s) := by
  induction done generalizing events s with
  | nil => simpa using h
  | cons e rest ih =>
      obtain ⟨he, hrest⟩ := List.forall_mem_cons.mp hknown
      have hnext : Viewed (events ++ [.readingAccepted e receivedMs])
          (s.apply (.readingAccepted e receivedMs)) := h.apply (.readingAccepted he)
      rw [List.map_cons, List.foldl_cons, List.append_cons]
      refine ih hnext fun e' he' => (hnext.registered _).mpr ?_
      rw [registers_append]
      exact List.mem_append_left _ ((h.registered _).mp (hrest e' he'))

/-- Whatever part of a plan is carried out keeps the view. -/
theorem Viewed.plan {c : Crates} (h : Viewed events s) {call : Call} {done rest : List Event}
    (hplan : s.plan c call = .ok (done ++ rest)) :
    Viewed (events ++ done) (done.foldl Store.apply s) := by
  have hsingle {event : Event} (hfits : event.Fits s) (hdone : done ++ rest = [event]) :
      Viewed (events ++ done) (done.foldl Store.apply s) := by
    cases done with
    | nil => simpa using h
    | cons first more =>
        obtain ⟨rfl, hmore⟩ := List.cons.inj hdone
        obtain rfl := (List.append_eq_nil_iff.mp hmore).1
        exact h.apply hfits
  generalize hall : done ++ rest = planned at hplan
  cases Store.plan_ok hplan with
  | @register deviceId _ _ _ hnew _ =>
      refine hsingle (.registered ?_ ⟨rfl, rfl, rfl⟩) hall
      rw [← Std.ExtTreeMap.contains_iff_mem, Bool.not_eq_true]
      exact hnew
  | rotateCredential hd _ =>
      refine hsingle (.credentialRotated ?_) hall
      rwa [h.named _ _ hd]
  | ingest _ _ hreviewed _ =>
      obtain ⟨added, _, hadded, rfl, rfl⟩ := List.append_eq_map_iff.mp hall
      refine h.readings fun e he => hreviewed.mem_devices e ?_
      rw [hadded]
      exact List.mem_append_left _ he
  | publishFirmware => exact hsingle .firmwarePublished hall
  | publishConfig => exact hsingle .configPublished hall
  | reopen =>
      obtain rfl := (List.append_eq_nil_iff.mp hall).1
      simpa using h

/-- What the dashboard shows of a device: its last reading in the log, and whether that came in at
most the given time ago. -/
structure Health.Shows (h : Health) (events : List Event) (now staleAfterMs : Int64) : Prop where
  lastSeenMs : h.lastSeenMs = (lastReading events h.deviceId).map Prod.fst
  lastSequence : h.lastSequence = (lastReading events h.deviceId).map fun r => r.2.sequence
  bootCounter : h.bootCounter = (lastReading events h.deviceId).map fun r => r.2.bootCounter
  online : h.online = true ↔ ∃ t r, lastReading events h.deviceId = some (t, r) ∧
    0 ≤ now.toInt - t.toInt ∧ now.toInt - t.toInt ≤ staleAfterMs.toInt
  stale : h.stale = !h.online

/-- The health of a device in the log. -/
theorem Viewed.health (h : Viewed events s) {now staleAfterMs : Int64} {id : String}
    {health : Health} (hbound : staleAfterMs.toInt < 2 ^ 63 - 1)
    (hhealth : s.health id now staleAfterMs = .ok health) :
    health.Shows events now staleAfterMs := by
  have honline := Store.health_online_iff hbound hhealth
  unfold Store.health at hhealth
  split at hhealth
  · cases hhealth
  · rename_i d hd
    obtain ⟨hseen, hsequence, hboot⟩ := h.shows id d hd
    obtain rfl := Except.ok.inj hhealth
    refine ⟨hseen, hsequence, hboot, honline.trans ?_, rfl⟩
    constructor
    · rintro ⟨t, ht, hpast, hrecent⟩
      obtain ⟨⟨t', r⟩, hlast, rfl⟩ := Option.map_eq_some_iff.mp (hseen.symm.trans ht)
      exact ⟨t', r, hlast, hpast, hrecent⟩
    · rintro ⟨t, r, hlast, hpast, hrecent⟩
      exact ⟨t, hseen.trans (congrArg (Option.map Prod.fst) hlast), hpast, hrecent⟩

/-- The view is about the devices only. -/
theorem Viewed.of_devices {s' : Store} (h : Viewed events s) (hsame : s'.devices = s.devices) :
    Viewed events s' where
  named := hsame ▸ h.named
  registered := hsame ▸ h.registered
  once := h.once
  unheard := hsame ▸ h.unheard
  shows := hsame ▸ h.shows

/-- A run keeps the view. -/
theorem viewed_run {c : Crates} {reread : F64 → F64} (hc : c.Rereads reread) {calls : List Call}
    {s : Server} (hrun : Server.fresh.run c calls = some s) :
    ∃ events, Sealed c events s.log ∧ s.store.devices = (Store.replay events).devices ∧
      Viewed events s.store := by
  refine Server.run_invariant (fun s => ∃ events, Sealed c events s.log ∧
    s.store.devices = (Store.replay events).devices ∧ Viewed events s.store)
    ?_ ⟨[], ⟨[], .nil, rfl⟩, rfl, viewed_empty⟩ hrun
  rintro s call s' reply ⟨events, hsealed, hdevices, hviewed⟩ hperform
  rcases hsealed.perform_cases hc hperform with ⟨-, rfl⟩ | ⟨done, hlog, hfold, hcases⟩
  · exact ⟨events, hsealed, rfl, hviewed.of_devices hdevices.symm⟩
  · refine ⟨events ++ done, hlog, ?_, ?_⟩
    · rw [hfold, replay_append]
      exact Store.devices_fold hdevices done
    · rw [hfold]
      rcases hcases with rfl | ⟨rest, hplan⟩
      · simpa using hviewed
      · exact hviewed.plan hplan

/-- The dashboard is a view of the log. After any sequence of calls with storage writes succeeding
and restarts anywhere, it has one line for each registration in the log, in the order of the names,
with the last reading of the device that the log holds: a reading that is repeated or refused does
not keep a device online. -/
theorem dashboard_of_log {c : Crates} {reread : F64 → F64} (hc : c.Rereads reread)
    {calls : List Call} {s : Server} (hrun : Server.fresh.run c calls = some s) :
    ∃ events, Sealed c events s.log ∧ ∀ now staleAfterMs : Int64,
      let lines := s.store.dashboard now staleAfterMs
      (lines.map Health.deviceId).Perm (events.filterMap Event.registers) ∧
        (lines.map Health.deviceId).Pairwise (fun a b => compare a b = .lt) ∧
        (staleAfterMs.toInt < 2 ^ 63 - 1 → ∀ h ∈ lines, h.Shows events now staleAfterMs) := by
  obtain ⟨events, hsealed, -, hviewed⟩ := viewed_run hc hrun
  refine ⟨events, hsealed, fun now staleAfterMs => ⟨?_, ?_, fun hbound h hmem => ?_⟩⟩
  · rw [Store.dashboard_devices]
    refine (List.perm_ext_iff_of_nodup Std.ExtTreeMap.nodup_keys hviewed.once).mpr fun id => ?_
    rw [Std.ExtTreeMap.mem_keys, hviewed.registered]
  · rw [Store.dashboard_devices]
    exact Std.ExtTreeMap.ordered_keys
  · obtain ⟨id, -, hhealth⟩ := List.mem_filterMap.mp hmem
    cases hid : s.store.health id now staleAfterMs with
    | error e =>
        rw [hid] at hhealth
        cases hhealth
    | ok health =>
        rw [hid] at hhealth
        obtain rfl := Option.some.inj hhealth
        exact hviewed.health hbound hid

/-- A device and its first reading. -/
theorem dashboard_of_log_reading :
    ∃ e s events, signed .reference "00" ⟨"d", "1", 7, 10, 1, ⟨0x3FF0000000000000⟩, "ok"⟩ = .ok e ∧
      Server.fresh.run .reference [.register "d" "00" "1", .ingest [e] 20] = some s ∧
      Sealed .reference events s.log ∧ ∀ h ∈ s.store.dashboard 30 1000, h.Shows events 30 1000 := by
  obtain ⟨signature, hsigned, -⟩ := Store.signed_registered reference_serializes
    (show unhex "00" = .ok [0] from rfl) "1"
    (r := ⟨"d", "1", 7, 10, 1, ⟨0x3FF0000000000000⟩, "ok"⟩) (by decide) (by simp)
  obtain ⟨s, hrun, -⟩ := (recorded_fresh _).run reference_rereads
    [.register "d" "00" "1", .ingest [_] 20]
  obtain ⟨events, hsealed, hdashboard⟩ := dashboard_of_log reference_rereads hrun
  exact ⟨_, s, events, hsigned, hrun, hsealed, (hdashboard 30 1000).2.2 (by decide)⟩

end Fieldbus.Cloud
