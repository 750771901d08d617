import Fieldbus.Cloud.Json
import Fieldbus.Cloud.Review

/-!
# Replay refines the live store

As long as storage writes succeed, the log is a file of complete lines whose events fold to the live
store, up to values that a restart has read back (`Recorded`); every call keeps this, so opening the
log at any point rebuilds the store up to those values. Where the JSON crate reads values back as
they were (`Undoes`), it rebuilds exactly the store: `replay_refines_live_store`, over whole runs.
-/

namespace Fieldbus.Cloud

open ByteLines

variable {c : Crates}

/-- The text is the log line of a finite event. -/
structure Logs (c : Crates) (event : Event) (text : String) : Prop where
  finite : event.Finite
  text : c.toString event = .ok text

/-- The log consists of the complete lines of the given events. -/
def Sealed (c : Crates) (events : List Event) (log : List UInt8) : Prop :=
  ∃ texts, List.Forall₂ (Logs c) events texts ∧ log = sealed (texts.map Utf8.encode)

/-- The store the given events amount to. -/
def Store.replay (events : List Event) : Store := events.foldl Store.apply .empty

/-- What an event makes of the devices depends on them alone. -/
theorem Store.devices_apply {s s' : Store} (h : s.devices = s'.devices) (event : Event) :
    (s.apply event).devices = (s'.apply event).devices := by
  cases event with
  | readingAccepted | registered | credentialRotated => simp only [apply, h]
  | firmwarePublished | configPublished => exact h

theorem Store.devices_fold {s s' : Store} (h : s.devices = s'.devices) (events : List Event) :
    (events.foldl apply s).devices = (events.foldl apply s').devices := by
  induction events generalizing s s' with
  | nil => exact h
  | cons event rest ih => exact ih (devices_apply h event)

/-- Events with other values amount to the same maps with other values. -/
theorem replay_map_value (f : F64 → F64) (events : List Event) :
    Store.replay (events.map (Event.mapValue f)) = (Store.replay events).mapValue f := by
  rw [Store.replay, Store.replay, Store.map_value_fold, Store.map_value_empty]

/-- Events that are read back as they were amount to what they did. -/
theorem replay_kept {f : F64 → F64} {events : List Event}
    (h : ∀ event ∈ events, event.Kept f) :
    (Store.replay events).mapValue f = Store.replay events := by
  rw [← replay_map_value, List.map_congr_left (g := id) h, List.map_id]

/-! ## Opening a sealed log -/

section Reading

variable {reread : F64 → F64} {event : Event} {text : String} {events : List Event}

/-- The line of an event is replayed as the event that is read back. -/
theorem replay_line (hc : c.Rereads reread) (h : Logs c event text) (s : Store) :
    s.replayLine c (Utf8.encode text) = .ok (s.apply (event.mapValue reread)) := by
  simp [Store.replayLine, hc.notBlank event text h.finite h.text,
    hc.fromStr event text h.finite h.text]

/-- The lines of events are replayed as the fold of what is read back. -/
theorem replay_lines (hc : c.Rereads reread) {texts : List String}
    (h : List.Forall₂ (Logs c) events texts) (s : Store) :
    (texts.map Utf8.encode).foldlM (Store.replayLine c) s =
      .ok ((events.map (Event.mapValue reread)).foldl Store.apply s) := by
  induction h generalizing s with
  | nil => rfl
  | cons hlogs _ ih =>
      rw [List.map_cons, List.foldlM_cons, replay_line hc hlogs]
      exact ih _

/-- The lines of events are lines. -/
theorem logs_one_line (hc : c.Rereads reread) {texts : List String}
    (h : List.Forall₂ (Logs c) events texts) :
    ∀ text ∈ texts.map Utf8.encode, OneLine text := by
  induction h with
  | nil => simp
  | cons hlogs _ ih =>
      rw [List.map_cons, List.forall_mem_cons]
      exact ⟨hc.oneLine _ _ hlogs.finite hlogs.text, ih⟩

/-- Opening a log of complete lines rebuilds what its events amount to, with the values as they are
read back. -/
theorem open_sealed (hc : c.Rereads reread) {log : List UInt8} (h : Sealed c events log) :
    Store.open c log = .ok ((Store.replay events).mapValue reread) := by
  obtain ⟨texts, hlogs, rfl⟩ := h
  rw [Store.open, lines_sealed (logs_one_line hc hlogs), replay_lines hc hlogs, ← Store.replay,
    replay_map_value]

end Reading

/-- One more complete line. -/
theorem Sealed.append {events : List Event} {log : List UInt8} (h : Sealed c events log)
    {event : Event} {text : String} (hlogs : Logs c event text) :
    Sealed c (events ++ [event]) (log ++ Server.lineBytes text) := by
  obtain ⟨texts, hall, rfl⟩ := h
  refine ⟨texts ++ [text], List.rel_append hall (.cons hlogs .nil), ?_⟩
  simp [sealed_append, sealed_singleton, Server.lineBytes]

/-! ## Calls -/

/-- The log is complete, and the live store is what its events amount to, of whose readings some may
have been read back. -/
def Recorded (c : Crates) (reread : F64 → F64) (s : Server) : Prop :=
  ∃ events, Sealed c events s.log ∧ s.store.AsWritten reread (Store.replay events)

/-- Every event a call plans is finite: the checks of a batch refuse other values. -/
theorem plan_finite {s : Store} {call : Call} {events : List Event}
    (h : s.plan c call = .ok events) : ∀ event ∈ events, event.Finite := by
  cases Store.plan_ok h with
  | ingest _ _ hreviewed _ =>
      intro event hevent
      obtain ⟨e, he, rfl⟩ := List.mem_map.mp hevent
      exact (hreviewed.valid e (hreviewed.mem e he)).finite
  | register | rotateCredential | publishFirmware | publishConfig => simp [Event.Finite]
  | reopen => simp

/-- A commit whose writes all succeed appends to the log the events it applies: all of them, or
those before one that has no text. -/
theorem Sealed.commit {s : Server} {events : List Event} (hsealed : Sealed c events s.log)
    {planned : List Event} (hfinite : ∀ event ∈ planned, event.Finite) (index : Nat) :
    ∃ done rest, planned = done ++ rest ∧
      Sealed c (events ++ done) (Server.commit c (fun _ => .complete) s planned index).1.log ∧
      (Server.commit c (fun _ => .complete) s planned index).1.store =
        done.foldl Store.apply s.store ∧
      ((Server.commit c (fun _ => .complete) s planned index).2 = .ok () ↔ rest = []) := by
  induction planned generalizing s events index with
  | nil => exact ⟨[], [], rfl, by simpa [Server.commit] using hsealed, rfl, by simp [Server.commit]⟩
  | cons event rest ih =>
      obtain ⟨hevent, hrest⟩ := List.forall_mem_cons.mp hfinite
      cases htext : c.toString event with
      | error e =>
          simp only [Server.commit, Server.append, htext]
          exact ⟨[], event :: rest, rfl, by simpa using hsealed, rfl, by simp⟩
      | ok text =>
          simp only [Server.commit, Server.append, htext]
          obtain ⟨done, left, rfl, hlog, hstore, hreply⟩ :=
            ih (s := ⟨s.store.apply event, s.log ++ Server.lineBytes text⟩)
              (hsealed.append ⟨hevent, htext⟩) hrest (index + 1)
          exact ⟨event :: done, left, rfl, by simpa using hlog, hstore, hreply⟩

/-- A call whose writes succeed is possible. It appends to the log the events it applies, a prefix
of what it planned, and is answered with success when that is all of them. -/
theorem Sealed.perform {s : Server} {events : List Event} (hsealed : Sealed c events s.log)
    {call : Call} (hcall : call ≠ .reopen) :
    ∃ s' reply done, s.perform c call (fun _ => .complete) = some (s', reply) ∧
      Sealed c (events ++ done) s'.log ∧ s'.store = done.foldl Store.apply s.store ∧
      ((∃ error, reply = .error error ∧ done = []) ∨
        ∃ rest, s.store.plan c call = .ok (done ++ rest) ∧ (reply = .ok () ↔ rest = [])) := by
  rw [Server.perform_eq hcall]
  cases hplan : s.store.plan c call with
  | error e => exact ⟨s, .error e, [], rfl, by simpa using hsealed, rfl, .inl ⟨e, rfl, rfl⟩⟩
  | ok planned =>
      obtain ⟨done, rest, rfl, hlog, hfold, hreply⟩ := hsealed.commit (plan_finite hplan) 0
      exact ⟨_, _, done, rfl, hlog, hfold, .inr ⟨rest, rfl, hreply⟩⟩

/-- The events of a longer log amount to what the rest of them makes of the shorter one. -/
theorem replay_append (events done : List Event) :
    Store.replay (events ++ done) = done.foldl Store.apply (Store.replay events) :=
  List.foldl_append

section Reading

variable {reread : F64 → F64} {s s' : Server} {events : List Event}

/-- A restart comes up with what is read back. -/
theorem Sealed.reopen (hc : c.Rereads reread) (h : Sealed c events s.log) (w : Nat → Write) :
    s.perform c .reopen w = some (⟨(Store.replay events).mapValue reread, s.log⟩, .ok ()) := by
  simp only [Server.perform, open_sealed hc h]

/-- What a call whose writes succeed leaves behind: what is read back, in a restart, or a log of more
events, which are applied and begin what the call planned. -/
theorem Sealed.perform_cases (hc : c.Rereads reread) (h : Sealed c events s.log) {call : Call}
    {reply : Except Error Unit}
    (hperform : s.perform c call (fun _ => .complete) = some (s', reply)) :
    call = .reopen ∧ s' = ⟨(Store.replay events).mapValue reread, s.log⟩ ∨
      ∃ done, Sealed c (events ++ done) s'.log ∧ s'.store = done.foldl Store.apply s.store ∧
        (done = [] ∨ ∃ rest, s.store.plan c call = .ok (done ++ rest)) := by
  by_cases hcall : call = .reopen
  · rw [hcall, h.reopen hc] at hperform
    exact .inl ⟨hcall, (Prod.mk.inj (Option.some.inj hperform)).1.symm⟩
  · obtain ⟨s₁, reply₁, done, hperform₁, hlog, hfold, hcases⟩ := h.perform hcall
    obtain ⟨rfl, rfl⟩ := Prod.mk.inj (Option.some.inj (hperform₁.symm.trans hperform))
    exact .inr ⟨done, hlog, hfold, hcases.imp (fun ⟨_, _, hnil⟩ => hnil)
      fun ⟨rest, hplan, _⟩ => ⟨rest, hplan⟩⟩

/-- Opening the log rebuilds the live store but for the values of readings. -/
theorem Recorded.open (hc : c.Rereads reread) (h : Recorded c reread s) :
    ∃ t, Store.open c s.log = .ok t ∧ t.SameButValues s.store ∧ Recorded c reread ⟨t, s.log⟩ := by
  obtain ⟨events, hsealed, hstore⟩ := h
  exact ⟨_, open_sealed hc hsealed, (Store.SameButValues.map_value reread _).trans hstore.same.symm,
    events, hsealed, .read_back reread _⟩

/-- Every call whose writes succeed is possible and keeps log and store in step. -/
theorem Recorded.perform (hc : c.Rereads reread) (h : Recorded c reread s) (call : Call) :
    ∃ s' reply, s.perform c call (fun _ => .complete) = some (s', reply) ∧
      Recorded c reread s' := by
  by_cases hcall : call = .reopen
  · subst hcall
    obtain ⟨t, hopen, -, hrecorded⟩ := h.open hc
    exact ⟨_, _, by simp only [Server.perform, hopen]; rfl, hrecorded⟩
  · obtain ⟨events, hsealed, hstore⟩ := h
    obtain ⟨s', reply, done, hperform, hlog, hfold, -⟩ := hsealed.perform hcall
    refine ⟨s', reply, hperform, events ++ done, hlog, ?_⟩
    rw [hfold, replay_append]
    exact hstore.fold done

/-- What a call whose writes succeed can do to the maps: nothing but to the values of readings, in a
restart, or apply planned events in order up to a failure. -/
theorem Recorded.perform_cases (hc : c.Rereads reread) (h : Recorded c reread s) {call : Call}
    {reply : Except Error Unit}
    (hperform : s.perform c call (fun _ => .complete) = some (s', reply)) :
    s'.store.SameButValues s.store ∨ ∃ done rest, s.store.plan c call = .ok (done ++ rest) ∧
      s'.store = done.foldl Store.apply s.store := by
  obtain ⟨events, hsealed, hstore⟩ := h
  rcases hsealed.perform_cases hc hperform with ⟨-, rfl⟩ | ⟨done, -, hfold, rfl | ⟨rest, hplan⟩⟩
  · exact .inl ((Store.SameButValues.map_value reread _).trans hstore.same.symm)
  · exact .inl (hfold ▸ .refl s.store)
  · exact .inr ⟨done, rest, hplan, hfold⟩

/-- A batch whose writes succeed keeps log and store in step. -/
theorem Recorded.ingest (hc : c.Rereads reread) (h : Recorded c reread s) (batch : List Envelope)
    (receivedMs : Int64) :
    Recorded c reread (s.ingest c batch receivedMs fun _ => .complete).1 := by
  obtain ⟨s', reply, hperform, hrecorded⟩ := h.perform hc (.ingest batch receivedMs)
  obtain ⟨rfl, -⟩ := Prod.mk.inj (Option.some.inj hperform)
  exact hrecorded

end Reading

/-! ## Runs -/

/-- A run of calls whose storage writes all succeed. -/
def Server.run (c : Crates) (s : Server) (calls : List Call) : Option Server :=
  calls.foldlM (fun s call => (s.perform c call fun _ => .complete).map Prod.fst) s

/-- A run is possible and keeps log and store in step. -/
theorem Recorded.run {reread : F64 → F64} (hc : c.Rereads reread) {s : Server}
    (h : Recorded c reread s) (calls : List Call) :
    ∃ s', s.run c calls = some s' ∧ Recorded c reread s' := by
  induction calls generalizing s with
  | nil => exact ⟨s, rfl, h⟩
  | cons call rest ih =>
      obtain ⟨s₁, reply, hperform, hrecorded⟩ := h.perform hc call
      obtain ⟨s', hrun, hfinal⟩ := ih hrecorded
      refine ⟨s', ?_, hfinal⟩
      rw [Server.run, List.foldlM_cons, hperform]
      exact hrun

/-- What every call keeps, every run keeps. -/
theorem Server.run_invariant (Inv : Server → Prop)
    (hstep : ∀ s call s' reply, Inv s → s.perform c call (fun _ => .complete) = some (s', reply) →
      Inv s')
    {s s' : Server} {calls : List Call} (hs : Inv s) (hrun : s.run c calls = some s') : Inv s' := by
  induction calls generalizing s with
  | nil =>
      obtain rfl := Option.some.inj hrun
      exact hs
  | cons call rest ih =>
      rw [Server.run, List.foldlM_cons] at hrun
      cases hperform : s.perform c call (fun _ => .complete) with
      | none => simp [hperform] at hrun
      | some r =>
          rw [hperform] at hrun
          exact ih (hstep s call r.1 r.2 hs hperform) hrun

theorem Server.run_append (s : Server) (first second : List Call) :
    s.run c (first ++ second) = (s.run c first).bind fun s' => s'.run c second := by
  simp only [run, List.foldlM_append]
  rfl

/-- A first registration. -/
theorem Server.run_register {deviceId secretHex firmwareVersion text : String} {key : List UInt8}
    (hhex : unhex secretHex = .ok key)
    (htext : c.toString (.registered (.initial deviceId secretHex firmwareVersion)) = .ok text) :
    Server.fresh.run c [.register deviceId secretHex firmwareVersion] =
      some ⟨Store.empty.apply (.registered (.initial deviceId secretHex firmwareVersion)),
        lineBytes text⟩ := by
  rw [DeviceRecord.initial] at htext
  simp [run, perform, register, fresh, Store.empty, hhex, append, htext, DeviceRecord.initial]

theorem recorded_fresh (reread : F64 → F64) : Recorded c reread .fresh :=
  ⟨[], ⟨[], .nil, rfl⟩, .refl reread _⟩

/-- Replay refines the live store: after any sequence of calls on a store that started with an empty
log, whatever their arguments and whichever of them their own checks reject, with storage writes
succeeding and restarts anywhere, opening the log as it stands rebuilds exactly the maps of the live
store. -/
theorem replay_refines_live_store (hc : c.Undoes) (calls : List Call) :
    ∃ s, Server.fresh.run c calls = some s ∧ Store.open c s.log = .ok s.store := by
  have hread := Crates.undoes_iff.mp hc
  obtain ⟨s, hrun, events, hsealed, hstore⟩ := (recorded_fresh id).run hread calls
  -- every value is read back as it was written
  have hkept : ∀ event ∈ events, event.Kept id := by
    rintro (_ | _ | _ | _ | _) _ <;> rfl
  refine ⟨s, hrun, ?_⟩
  rw [open_sealed hread hsealed, replay_kept hkept, hstore.eq_of_kept (replay_kept hkept)]

/-- The rule at a registration, a restart and a rotation. -/
theorem replay_refines_live_store_rotated :
    ∃ s, Server.fresh.run .roundtrip
        [.register "d" "00" "1", .reopen, .rotateCredential "d" "01"] = some s ∧
      Store.open .roundtrip s.log = .ok s.store :=
  replay_refines_live_store roundtrip_undoes _

end Fieldbus.Cloud
