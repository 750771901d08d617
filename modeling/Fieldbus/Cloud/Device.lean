import Fieldbus.Cloud.Store
import Fieldbus.Library.Fallible

/-!
# The simulated device

After `DeviceSimulator` in `cloud/src/lib.rs`: a bounded ring of unsent readings that leave it only
once a batch is answered with success. `sync` is parameterised by the closure that sends a batch;
`Link` lists what can happen to a request on its way to a server and back, and `sync_cases` is what
one attempt does to device and server.
-/

namespace Fieldbus.Cloud

structure DeviceSimulator where
  deviceId : String
  firmwareVersion : String
  secretHex : String
  bootCounter : UInt64
  nextSequence : UInt64
  ring : List Reading
  droppedWhenFull : UInt64

namespace DeviceSimulator

/-- A device with an empty ring. -/
def new (deviceId firmware secretHex : String) (bootCounter : UInt64) : DeviceSimulator :=
  ⟨deviceId, firmware, secretHex, bootCounter, 0, [], 0⟩

/-- The reading the device takes next. -/
def next (d : DeviceSimulator) (timestampMs : Int64) (value : F64) (quality : String) : Reading :=
  ⟨d.deviceId, d.firmwareVersion, d.nextSequence, timestampMs, d.bootCounter, value, quality⟩

/-- Take a reading; a full ring loses its oldest. -/
def sample (d : DeviceSimulator) (timestampMs : Int64) (value : F64) (quality : String) :
    DeviceSimulator :=
  let reading := d.next timestampMs value quality
  let d := { d with nextSequence := d.nextSequence + 1 }
  let d := if d.ring.length = maxRing then
      { d with ring := d.ring.tail, droppedWhenFull := d.droppedWhenFull + 1 }
    else d
  { d with ring := d.ring ++ [reading] }

section Sample

variable (d : DeviceSimulator) (timestampMs : Int64) (value : F64) (quality : String)

/-- A sample field by field. -/
theorem sample_eq : d.sample timestampMs value quality = { d with
    nextSequence := d.nextSequence + 1
    ring := (if d.ring.length = maxRing then d.ring.tail else d.ring) ++
      [d.next timestampMs value quality]
    droppedWhenFull :=
      if d.ring.length = maxRing then d.droppedWhenFull + 1 else d.droppedWhenFull } := by
  by_cases hfull : d.ring.length = maxRing <;> simp [sample, hfull]

/-- The readings a sample loses. -/
def evicts : List Reading := if d.ring.length = maxRing then d.ring.take 1 else []

/-- The ring after a sample and what the sample lost make up the ring before and the new reading. -/
theorem evicts_append_ring : d.evicts ++ (d.sample timestampMs value quality).ring =
    d.ring ++ [d.next timestampMs value quality] := by
  rw [sample_eq, evicts]
  dsimp only
  split
  · rw [← List.append_assoc, ← List.drop_one, List.take_append_drop]
  · rfl

/-- A bounded ring stays bounded. -/
theorem sample_ring_length (h : d.ring.length ≤ maxRing) :
    (d.sample timestampMs value quality).ring.length ≤ maxRing := by
  have hroom : 1 ≤ maxRing := by decide
  rw [sample_eq]
  dsimp only
  rw [List.length_append, List.length_singleton]
  split
  · rw [List.length_tail]
    omega
  · omega

/-- Every lost reading is counted. -/
theorem sample_dropped (h : d.droppedWhenFull.toNat + 1 < UInt64.size) :
    (d.sample timestampMs value quality).droppedWhenFull.toNat =
      d.droppedWhenFull.toNat + d.evicts.length := by
  rw [sample_eq, evicts]
  dsimp only
  split
  · rename_i hfull
    rw [UInt64.toNat_add, UInt64.toNat_one, List.length_take, hfull]
    exact Nat.mod_eq_of_lt h
  · rfl

end Sample

/-- The number of unsent readings. -/
def pending (d : DeviceSimulator) : Nat := d.ring.length

/-- Send the oldest unsent readings and, on success, drop them from the ring. The closure's state is
the link to the server. -/
def sync {σ : Type} (c : Crates) (send : List Envelope → σ → σ × Except Error Nat)
    (d : DeviceSimulator) (link : σ) : DeviceSimulator × σ × Except Error Nat :=
  match (d.ring.take maxBatch).mapM (signed c d.secretHex) with
  | .error e => (d, link, .error e)
  | .ok batch =>
      if batch.isEmpty then (d, link, .ok 0)
      else match send batch link with
        | (link, .error e) => (d, link, .error e)
        | (link, .ok n) =>
            if n > batch.length then
              (d, link, .error (.invalid "accepted count exceeds submitted batch"))
            -- success confirms the whole batch, also when none of it was new
            else ({ d with ring := d.ring.drop batch.length }, link, .ok n)

/-- Begin a new boot session. -/
def reboot (d : DeviceSimulator) : DeviceSimulator :=
  { d with bootCounter := d.bootCounter + 1, nextSequence := 0 }

end DeviceSimulator

/-- What happens to one request and its answer. -/
inductive Link where
  /-- The request does not reach the server, or is answered with an error on the way. -/
  | requestLost (e : Error)
  /-- The server's answer reaches the device. -/
  | answered
  /-- The server handles the request, but its answer does not reach the device. -/
  | answerLost (e : Error)

/-- Send a batch to a server whose storage writes succeed. -/
def Link.send (c : Crates) (receivedMs : Int64) (link : Link) (batch : List Envelope) (s : Server) :
    Server × Except Error Nat :=
  match link with
  | .requestLost e => (s, .error e)
  | .answered => s.ingest c batch receivedMs fun _ => .complete
  | .answerLost e => ((s.ingest c batch receivedMs fun _ => .complete).1, .error e)

variable {c : Crates}

/-- Signed envelopes carry the readings they were made of, with their signatures. -/
theorem signed_batch {secretHex : String} {readings : List Reading} {batch : List Envelope}
    (h : readings.mapM (signed c secretHex) = .ok batch) :
    batch.map (fun e => e.reading) = readings ∧
      ∀ e ∈ batch, e.protocolVersion = protocolVersion ∧
        sign c secretHex e.reading = .ok e.signature := by
  induction Fallible.mapM_ok_iff.mp h with
  | nil => simp
  | cons hfirst hrest ih =>
      obtain ⟨hversion, rfl, hsign⟩ := signed_ok_iff.mp hfirst
      obtain ⟨hreadings, hsigned⟩ := ih (Fallible.mapM_ok_iff.mpr hrest)
      exact ⟨by rw [List.map_cons, hreadings],
        List.forall_mem_cons.mpr ⟨⟨hversion, hsign⟩, hsigned⟩⟩

/-- Readings that can be signed one by one can be signed as a batch. -/
theorem signed_batch_ok {secretHex : String} {readings : List Reading}
    (h : ∀ r ∈ readings, ∃ signature, sign c secretHex r = .ok signature) :
    ∃ batch, readings.mapM (signed c secretHex) = .ok batch := by
  refine Fallible.exists_mapM_ok_iff.mpr fun r hr => ?_
  obtain ⟨signature, hsign⟩ := h r hr
  exact ⟨⟨protocolVersion, r, signature⟩, signed_ok_iff.mpr ⟨rfl, rfl, hsign⟩⟩

/-- A batch of the oldest readings is shorter than `maxBatch` only if it is the whole ring. -/
theorem DeviceSimulator.drop_batch {d : DeviceSimulator} {batch : List Envelope}
    (h : batch.map (fun e => e.reading) = d.ring.take maxBatch) :
    d.ring.drop batch.length = d.ring.drop maxBatch := by
  rw [← List.length_map (fun e : Envelope => e.reading), h, List.length_take,
    List.drop_eq_drop_iff]
  omega

/-- A batch that is answered with success leaves the ring. -/
theorem DeviceSimulator.sync_ok {σ : Type} {send : List Envelope → σ → σ × Except Error Nat}
    {d : DeviceSimulator} {link link' : σ} {batch : List Envelope} {n : Nat}
    (hbatch : (d.ring.take maxBatch).mapM (signed c d.secretHex) = .ok batch) (hne : batch ≠ [])
    (hsend : send batch link = (link', .ok n)) (hn : n ≤ batch.length) :
    d.sync c send link = ({ d with ring := d.ring.drop batch.length }, link', .ok n) := by
  simp only [sync, hbatch, List.isEmpty_iff, hne, if_false, hsend, Nat.not_lt.mpr hn]

/-- What one attempt does: nothing, or a batch of the oldest readings is ingested, and these leave
the ring only if it was stored. -/
theorem DeviceSimulator.sync_cases (d : DeviceSimulator) (link : Link) (receivedMs : Int64)
    (s : Server) :
    let r := d.sync c (link.send c receivedMs) s
    (r.1 = d ∧ r.2.1 = s) ∨
      ∃ batch, batch.map (fun e => e.reading) = d.ring.take maxBatch ∧
        r.2.1 = (s.ingest c batch receivedMs fun _ => .complete).1 ∧
        (r.1 = d ∨ r.1 = { d with ring := d.ring.drop maxBatch } ∧
          ∃ n, (s.ingest c batch receivedMs fun _ => .complete).2 = .ok n) := by
  intro r
  cases hbatch : (d.ring.take maxBatch).mapM (signed c d.secretHex) with
  | error e =>
      left
      simp only [r, sync, hbatch, and_self]
  | ok batch =>
      have hreadings := (signed_batch hbatch).1
      by_cases hempty : batch.isEmpty = true
      · left
        simp only [r, sync, hbatch, hempty, if_true, and_self]
      · rw [Bool.not_eq_true] at hempty
        simp only [r, sync, hbatch, hempty, Bool.false_eq_true, if_false]
        cases link with
        | requestLost e => exact .inl ⟨rfl, rfl⟩
        | answerLost e => exact .inr ⟨batch, hreadings, rfl, .inl rfl⟩
        | answered =>
            right
            refine ⟨batch, hreadings, ?_⟩
            simp only [Link.send]
            rcases s.ingest c batch receivedMs fun _ => .complete with ⟨s', e | n⟩
            · exact ⟨rfl, .inl rfl⟩
            · dsimp only
              split
              · exact ⟨rfl, .inl rfl⟩
              · exact ⟨rfl, .inr ⟨by rw [drop_batch hreadings], n, rfl⟩⟩

end Fieldbus.Cloud
