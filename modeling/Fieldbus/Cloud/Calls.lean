import Fieldbus.Cloud.Store

/-!
# Calls on the store

Every mutating call checks its arguments against the live store and then appends a list of events.
`plan` is the first half and `commit` the second; `perform_eq` splits the calls of `Server` that
way, and is all that later modules use of them. `reopen` stands for a restart of the process.
-/

namespace Fieldbus.Cloud

variable (c : Crates)

/-- What can happen to a store process. -/
inductive Call where
  | register (deviceId secretHex firmwareVersion : String)
  | rotateCredential (id secretHex : String)
  | ingest (batch : List Envelope) (receivedMs : Int64)
  | publishFirmware (m : FirmwareMetadata)
  | publishConfig (m : ConfigMetadata)
  | reopen

/-- The record a registration creates. -/
def DeviceRecord.initial (deviceId secretHex firmwareVersion : String) : DeviceRecord :=
  ⟨deviceId, 1, secretHex, firmwareVersion, 1, none, none, none⟩

/-- The record after a rotation. -/
def DeviceRecord.rotated (d : DeviceRecord) (secretHex : String) : DeviceRecord :=
  { d with credentialVersion := d.credentialVersion + 1, secretHex := secretHex }

namespace Store

/-- The events a call appends once its checks have passed; a restart appends none. -/
def plan (s : Store) : Call → Except Error (List Event)
  | .register deviceId secretHex firmwareVersion =>
      if s.devices.contains deviceId then .error .conflict
      else (unhex secretHex).map fun _ =>
        [.registered (.initial deviceId secretHex firmwareVersion)]
  | .rotateCredential id secretHex =>
      match s.devices[id]? with
      | none => .error .notFound
      | some d => (unhex secretHex).map fun _ => [.credentialRotated (d.rotated secretHex)]
  | .ingest batch receivedMs =>
      if batch.isEmpty ∨ batch.length > maxBatch then
        .error (.invalid "batch must contain 1..64 readings")
      else match batch.foldlM (s.review c) [] with
        | .error e => .error e
        | .ok unseen =>
            if s.readingCount + unseen.length > maxStoredReadings then .error .conflict
            else .ok (unseen.map fun e => .readingAccepted e receivedMs)
  | .publishFirmware m =>
      if m.version.isEmpty ∨ m.sha256.utf8ByteSize ≠ 64 then
        .error (.invalid "invalid firmware metadata")
      else .ok [.firmwarePublished m]
  | .publishConfig m =>
      if m.samplePeriodMs = 0 ∨ m.staleAfterMs < m.samplePeriodMs then
        .error (.invalid "invalid config metadata")
      else .ok [.configPublished m]
  | .reopen => .ok []

end Store

namespace Server

/-- Append events one by one until a write fails; the `k`-th append meets the `k`-th write. -/
def commit (w : Nat → Write) : Server → List Event → Nat → Server × Except Error Unit
  | s, [], _ => (s, .ok ())
  | s, event :: rest, index =>
      match s.append c event (w index) with
      | (s, .error error) => (s, .error error)
      | (s, .ok ()) => commit w s rest (index + 1)

/-- A call and whether it was answered with success. A process whose log cannot be opened does not
come up. -/
def perform (s : Server) (call : Call) (w : Nat → Write) : Option (Server × Except Error Unit) :=
  match call with
  | .register deviceId secretHex firmwareVersion =>
      let r := s.register c deviceId secretHex firmwareVersion (w 0)
      some (r.1, r.2.map fun _ => ())
  | .rotateCredential id secretHex =>
      let r := s.rotateCredential c id secretHex (w 0)
      some (r.1, r.2.map fun _ => ())
  | .ingest batch receivedMs =>
      let r := s.ingest c batch receivedMs w
      some (r.1, r.2.map fun _ => ())
  | .publishFirmware m => some (s.publishFirmware c m (w 0))
  | .publishConfig m => some (s.publishConfig c m (w 0))
  | .reopen => match Store.open c s.log with
      | .ok store => some (⟨store, s.log⟩, .ok ())
      | .error _ => none

variable {c} {s : Server} {w : Nat → Write}

/-- What an append can do: write the whole line and apply the event, fail before it writes, or fail
after it has written some bytes. -/
theorem append_cases (s : Server) (event : Event) (write : Write) :
    (∃ text, c.toString event = .ok text ∧ write = .complete ∧
      s.append c event write = (⟨s.store.apply event, s.log ++ lineBytes text⟩, .ok ())) ∨
    (∃ error, s.append c event write = (s, .error error)) ∨
    ∃ text error, c.toString event = .ok text ∧ s.append c event write =
      (⟨s.store, s.log ++ write.bytes (lineBytes text)⟩, .error error) := by
  cases htext : c.toString event with
  | error e =>
      right; left
      cases write with
      | openFailed message => exact ⟨_, rfl⟩
      | complete | cut => exact ⟨.invalid e, by simp only [append, htext]⟩
  | ok text =>
      cases write with
      | complete => exact .inl ⟨text, rfl, rfl, by simp only [append, htext]⟩
      | openFailed message => exact .inr (.inl ⟨_, rfl⟩)
      | cut written message =>
          -- the file has changed although the store has not
          refine .inr (.inr ⟨text, .io message, rfl, ?_⟩)
          simp only [append, htext, Write.bytes]

/-- A commit of one event is an append. -/
theorem commit_singleton (event : Event) (index : Nat) :
    commit c w s [event] index = s.append c event (w index) := by
  rw [commit]
  rcases s.append c event (w index) with ⟨s, e | u⟩ <;> rfl

/-- A commit applies the events in order up to a failure, and reports success when there is none. -/
theorem commit_prefix (planned : List Event) (s : Server) (index : Nat) :
    ∃ done rest, planned = done ++ rest ∧
      (commit c w s planned index).1.store = done.foldl Store.apply s.store ∧
      ((commit c w s planned index).2 = .ok () ↔ rest = []) := by
  induction planned generalizing s index with
  | nil => exact ⟨[], [], rfl, rfl, by simp [commit]⟩
  | cons event rest ih =>
      rw [commit]
      rcases append_cases (c := c) s event (w index) with
        ⟨text, -, -, happend⟩ | ⟨error, happend⟩ | ⟨text, error, -, happend⟩
      · rw [happend]
        obtain ⟨done, left, rfl, hstore, hreply⟩ :=
          ih ⟨s.store.apply event, s.log ++ lineBytes text⟩ (index + 1)
        exact ⟨event :: done, left, rfl, hstore, hreply⟩
      · rw [happend]
        exact ⟨[], event :: rest, rfl, rfl, by simp⟩
      · rw [happend]
        exact ⟨[], event :: rest, rfl, rfl, by simp⟩

/-- Storing envelopes is committing their events, and counts them. -/
theorem accept_eq (receivedMs : Int64) (unseen : List Envelope) (index : Nat) :
    accept c receivedMs w s unseen index =
      ((commit c w s (unseen.map fun e => .readingAccepted e receivedMs) index).1,
        (commit c w s (unseen.map fun e => .readingAccepted e receivedMs) index).2.map
          fun _ => index + unseen.length) := by
  induction unseen generalizing s index with
  | nil => rfl
  | cons e rest ih =>
      rw [accept, List.map_cons, commit]
      rcases s.append c (.readingAccepted e receivedMs) (w index) with ⟨s', error | u⟩
      · rfl
      · simp only [ih, List.length_cons]
        rw [show index + 1 + rest.length = index + (rest.length + 1) by omega]

/-- A call that is not a restart checks, then commits what it planned. -/
theorem perform_eq {call : Call} (h : call ≠ .reopen) :
    s.perform c call w = some (match s.store.plan c call with
      | .error e => (s, .error e)
      | .ok events => commit c w s events 0) := by
  cases call with
  | register deviceId secretHex firmwareVersion =>
      simp only [perform, register, Store.plan, DeviceRecord.initial]
      split
      · rfl
      · cases unhex secretHex with
        | error e => rfl
        | ok bytes =>
            simp only [Except.map, commit_singleton]
            rcases s.append c _ (w 0) with ⟨s', error | u⟩ <;> rfl
  | rotateCredential id secretHex =>
      simp only [perform, rotateCredential, Store.plan]
      cases s.store.devices[id]? with
      | none => rfl
      | some d =>
          cases unhex secretHex with
          | error e => rfl
          | ok bytes =>
              simp only [Except.map, commit_singleton, DeviceRecord.rotated]
              rcases s.append c _ (w 0) with ⟨s', error | u⟩ <;> rfl
  | ingest batch receivedMs =>
      simp only [perform, ingest, Store.plan]
      split
      · rfl
      · cases batch.foldlM (s.store.review c) [] with
        | error e => rfl
        | ok unseen =>
            dsimp only
            split
            · rfl
            · simp only [accept_eq]
              rcases commit c w s (unseen.map fun e => .readingAccepted e receivedMs) 0 with
                ⟨s', error | u⟩ <;> rfl
  | publishFirmware m =>
      simp only [perform, publishFirmware, Store.plan]
      split
      · rfl
      · simp only [commit_singleton]
  | publishConfig m =>
      simp only [perform, publishConfig, Store.plan]
      split
      · rfl
      · simp only [commit_singleton]
  | reopen => exact absurd rfl h

end Server

end Fieldbus.Cloud
