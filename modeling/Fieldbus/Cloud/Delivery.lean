import Fieldbus.Cloud.Contents
import Fieldbus.Cloud.Device

/-!
# End-to-end delivery

A device and a server under any interleaving of samples, reboots and synchronisation attempts, of
which requests or answers may be lost, with rotations, restarts and other calls on the server in
between. `end_to_end_delivery` says where every sampled reading is, that nothing else is stored for
the device, and that the ring stays bounded and in order, as long as restarts read the stored values
of the device back as they were. `Delivered` is the invariant behind it.
-/

namespace Fieldbus.Cloud

open scoped List

variable {c : Crates} {reread : F64 → F64}

/-! ## The order of readings -/

theorem session_lt_iff {a b : SessionKey} :
    sessionOrder a b = .lt ↔ a.1 < b.1 ∨ a.1 = b.1 ∧ a.2 < b.2 := by
  simp [sessionOrder, compareLex, compareOn, Ordering.then_eq_lt, Std.compare_eq_lt]

/-- Earlier in boot session and sequence. -/
def Reading.Before (a b : Reading) : Prop := sessionOrder a.key b.key = .lt

/-- In an increasing list a key occurs once. -/
theorem eq_of_key_eq {readings : List Reading} (h : readings.Pairwise Reading.Before)
    {a b : Reading} (ha : a ∈ readings) (hb : b ∈ readings) (hkey : a.key = b.key) : a = b := by
  have hnodup : (readings.map Reading.key).Nodup := by
    refine List.pairwise_map.mpr (h.imp fun {a b} hlt heq => ?_)
    have hself : sessionOrder b.key b.key = .eq := Std.ReflCmp.compare_self
    rw [Reading.Before, heq, hself] at hlt
    exact absurd hlt (by decide)
  exact List.inj_on_of_nodup_map hnodup ha hb hkey

/-! ## The system -/

/-- A device and a server, with the readings sampled and those lost to a full ring so far. -/
structure Delivery where
  device : DeviceSimulator
  server : Server
  sampled : List Reading
  evicted : List Reading

/-- The call submits no reading under the given device's name. -/
def Call.Spares (id : String) : Call → Prop
  | .ingest batch _ => ∀ e ∈ batch, e.reading.deviceId ≠ id
  | _ => True

/-- The store holds the reading under its identity: this very reading, and equal to itself. -/
def Store.Has (s : Store) (r : Reading) : Prop :=
  ∃ p, s.lookup r.identity = some p ∧ p.reading = r ∧ (p.reading == r) = true

/-- The event stores no reading under the given device's name. -/
def Event.Spares (id : String) : Event → Prop
  | .readingAccepted e _ => e.reading.deviceId ≠ id
  | _ => True

theorem Store.lookup_apply_of_spares (s : Store) {event : Event} {id : String}
    (h : event.Spares id) (key : SessionKey) :
    (s.apply event).lookup (id, key) = s.lookup (id, key) := by
  cases event with
  | readingAccepted e receivedMs =>
      rw [lookup_accept, if_neg]
      exact fun heq => h (congrArg Prod.fst heq)
  | registered | credentialRotated | firmwarePublished | configPublished => rfl

theorem Store.lookup_fold_of_spares (s : Store) {events : List Event} {id : String}
    (h : ∀ event ∈ events, event.Spares id) (key : SessionKey) :
    (events.foldl apply s).lookup (id, key) = s.lookup (id, key) := by
  induction events generalizing s with
  | nil => rfl
  | cons event rest ih =>
      obtain ⟨hevent, hrest⟩ := List.forall_mem_cons.mp h
      rw [List.foldl_cons, ih _ hrest, lookup_apply_of_spares s hevent]

/-- What a call plans concerns the devices it submits readings for. -/
theorem Store.plan_spares {s : Store} {call : Call} {planned : List Event} {id : String}
    (hcall : call.Spares id) (h : s.plan c call = .ok planned) :
    ∀ event ∈ planned, event.Spares id := by
  cases plan_ok h with
  | ingest _ _ hreviewed _ =>
      intro event hevent
      obtain ⟨e, he, rfl⟩ := List.mem_map.mp hevent
      exact hcall e (hreviewed.mem e he)
  | register | rotateCredential | publishFirmware | publishConfig => simp [Event.Spares]
  | reopen => simp

/-- A call whose writes succeed leaves the readings of a device that it spares as they are, provided
that a restart reads them back as they were. -/
theorem Server.perform_spares (hc : c.Rereads reread) {s s' : Server} {call : Call}
    {reply : Except Error Unit} {id : String} (hrecorded : Recorded c reread s)
    (hcall : call.Spares id) (hkept : call = .reopen → ∀ key p,
      s.store.lookup (id, key) = some p → p.mapValue reread = p)
    (hperform : s.perform c call (fun _ => .complete) = some (s', reply)) (key : SessionKey) :
    s'.store.lookup (id, key) = s.store.lookup (id, key) := by
  obtain ⟨events, hsealed, hstore⟩ := hrecorded
  rcases hsealed.perform_cases hc hperform with ⟨hreopen, rfl⟩ | ⟨done, -, hfold, hcases⟩
  · show ((Store.replay events).mapValue reread).readings.find id key = _
    rw [Store.find_map_value]
    rcases hstore.entry id key with hwritten | hread
    -- the live store has what was written, and that is read back as it was
    · cases hp : (Store.replay events).readings.find id key with
      | none => exact (hwritten.trans hp).symm
      | some p =>
          have hlive : s.store.lookup (id, key) = some p := hwritten.trans hp
          rw [hlive, Option.map_some, hkept hreopen key p hlive]
    · exact hread.symm
  · rw [hfold]
    refine Store.lookup_fold_of_spares _ (fun event hevent => ?_) key
    rcases hcases with rfl | ⟨rest, hplan⟩
    · simp at hevent
    · exact Store.plan_spares hcall hplan event (List.mem_append_left _ hevent)

namespace Delivery

/-- Nothing has been sampled yet. -/
def start (device : DeviceSimulator) (server : Server) : Delivery := ⟨device, server, [], []⟩

/-- What the device, the link or the server does. -/
inductive Action where
  | sample (timestampMs : Int64) (value : F64) (quality : String)
  | reboot
  | provision (secretHex : String)
  | sync (link : Link) (receivedMs : Int64)
  | serve (call : Call)

/-- One step of the device, of the link or of the server. The server's storage writes succeed, and
the device is the only one to submit readings under its name; it may be given another secret, as
after a rotation. -/
inductive Step (c : Crates) (s : Delivery) : Action → Delivery → Prop where
  | sample (timestampMs : Int64) (value : F64) (quality : String) :
      s.device.nextSequence.toNat + 1 < UInt64.size →
      s.device.droppedWhenFull.toNat + 1 < UInt64.size →
      Step c s (.sample timestampMs value quality) { s with
        device := s.device.sample timestampMs value quality
        sampled := s.sampled ++ [s.device.next timestampMs value quality]
        evicted := s.evicted ++ s.device.evicts }
  | reboot : s.device.bootCounter.toNat + 1 < UInt64.size →
      Step c s .reboot { s with device := s.device.reboot }
  | provision (secretHex : String) :
      Step c s (.provision secretHex) { s with device := { s.device with secretHex := secretHex } }
  | sync (link : Link) (receivedMs : Int64) :
      Step c s (.sync link receivedMs) { s with
        device := (s.device.sync c (link.send c receivedMs) s.server).1
        server := (s.device.sync c (link.send c receivedMs) s.server).2.1 }
  | serve {call : Call} {server : Server} {reply : Except Error Unit} :
      call.Spares s.device.deviceId →
      s.server.perform c call (fun _ => .complete) = some (server, reply) →
      Step c s (.serve call) { s with server := server }

/-- The states that steps lead to, each of them allowed in the state before it. -/
inductive Reachable (c : Crates) (allowed : Delivery → Action → Prop) (first : Delivery) :
    Delivery → Prop where
  | refl : Reachable c allowed first first
  | step {s s' : Delivery} {action : Action} : Reachable c allowed first s → allowed s action →
      s.Step c action s' → Reachable c allowed first s'

/-- A restart of the server finds for the device only values that are read back as they were. -/
def ReadsBack (reread : F64 → F64) (s : Delivery) : Action → Prop
  | .serve .reopen => ∀ key p, s.server.store.lookup (s.device.deviceId, key) = some p →
      p.mapValue reread = p
  | _ => True

/-- What holds of a device that started under the given name above the boot counters of the first
store. -/
structure Delivered (c : Crates) (reread : F64 → F64) (first : Store) (id : String)
    (boot : UInt64) (s : Delivery) : Prop where
  recorded : Recorded c reread s.server
  device : s.device.deviceId = id
  session : boot ≤ s.device.bootCounter
  increasing : s.sampled.Pairwise Reading.Before
  below : ∀ r ∈ s.sampled, r.deviceId = id ∧ boot ≤ r.bootCounter ∧
    sessionOrder r.key (s.device.bootCounter, s.device.nextSequence) = .lt
  ring : s.device.ring <+ s.sampled
  bounded : s.device.ring.length ≤ maxRing
  accounted : ∀ r ∈ s.sampled, r ∈ s.device.ring ∨ s.server.store.Has r ∨ r ∈ s.evicted
  dropped : s.device.droppedWhenFull.toNat = s.evicted.length
  stored : ∀ key p, s.server.store.lookup (id, key) = some p →
    first.lookup (id, key) = some p ∨ p.reading ∈ s.sampled

variable {s s' : Delivery} {first : Store} {id : String} {boot : UInt64}

/-- A counter below its maximum grows. -/
theorem lt_add_one {x : UInt64} (h : x.toNat + 1 < UInt64.size) : x < x + 1 := by
  rw [UInt64.lt_iff_toNat_lt, UInt64.toNat_add, UInt64.toNat_one]
  exact (Nat.mod_eq_of_lt h).symm ▸ Nat.lt_succ_self _

/-- Rebooting keeps the invariant: the new session comes after all others. -/
theorem Delivered.reboot (h : s.Delivered c reread first id boot)
    (hboot : s.device.bootCounter.toNat + 1 < UInt64.size) :
    Delivered c reread first id boot { s with device := s.device.reboot } := by
  have hlater := lt_add_one hboot
  refine ⟨h.recorded, h.device, UInt64.le_trans h.session (UInt64.le_of_lt hlater),
    h.increasing, fun r hr => ?_, h.ring, h.bounded, h.accounted, h.dropped, h.stored⟩
  obtain ⟨hid, hfirst, hlt⟩ := h.below r hr
  exact ⟨hid, hfirst, Std.TransCmp.lt_trans hlt (session_lt_iff.mpr (.inl hlater))⟩

/-- Sampling keeps the invariant: the reading comes after all others, and a full ring loses its
oldest reading to the evicted ones. -/
theorem Delivered.sample (h : s.Delivered c reread first id boot) (timestampMs : Int64)
    (value : F64) (quality : String) (hsequence : s.device.nextSequence.toNat + 1 < UInt64.size)
    (hdropped : s.device.droppedWhenFull.toNat + 1 < UInt64.size) :
    Delivered c reread first id boot { s with
      device := s.device.sample timestampMs value quality
      sampled := s.sampled ++ [s.device.next timestampMs value quality]
      evicted := s.evicted ++ s.device.evicts } := by
  have hlater : sessionOrder (s.device.bootCounter, s.device.nextSequence)
      (s.device.bootCounter, s.device.nextSequence + 1) = .lt :=
    session_lt_iff.mpr (.inr ⟨rfl, lt_add_one hsequence⟩)
  have hring := s.device.evicts_append_ring timestampMs value quality
  refine ⟨h.recorded, ?_, ?_, ?_, ?_, ?_, s.device.sample_ring_length _ _ _ h.bounded, ?_, ?_,
    fun key p hp => (h.stored key p hp).imp_right (List.mem_append_left _)⟩
  · rw [DeviceSimulator.sample_eq]
    exact h.device
  · rw [DeviceSimulator.sample_eq]
    exact h.session
  · refine List.pairwise_append.mpr
      ⟨h.increasing, List.pairwise_singleton _ _, fun r hr r' hr' => ?_⟩
    obtain rfl := List.mem_singleton.mp hr'
    exact (h.below r hr).2.2
  · rw [DeviceSimulator.sample_eq]
    refine List.forall_mem_append.mpr ⟨fun r hr => ?_, List.forall_mem_singleton.mpr
      ⟨h.device, h.session, hlater⟩⟩
    obtain ⟨hid, hfirst, hlt⟩ := h.below r hr
    exact ⟨hid, hfirst, Std.TransCmp.lt_trans hlt hlater⟩
  · have hsuffix := List.sublist_append_right s.device.evicts
      (s.device.sample timestampMs value quality).ring
    rw [hring] at hsuffix
    exact hsuffix.trans (h.ring.append_right _)
  · -- what was in the ring is in the new one or has just been evicted
    have hkept : ∀ r ∈ s.device.ring ++ [s.device.next timestampMs value quality],
        r ∈ s.device.evicts ∨ r ∈ (s.device.sample timestampMs value quality).ring := by
      intro r hr
      rw [← hring] at hr
      exact List.mem_append.mp hr
    refine List.forall_mem_append.mpr ⟨fun r hr => ?_, List.forall_mem_singleton.mpr ?_⟩
    · rcases h.accounted r hr with hold | hstored | hevicted
      · rcases hkept r (List.mem_append_left _ hold) with hlost | hnew
        · exact .inr (.inr (List.mem_append_right _ hlost))
        · exact .inl hnew
      · exact .inr (.inl hstored)
      · exact .inr (.inr (List.mem_append_left _ hevicted))
    · rcases hkept _ (List.mem_append_right _ (List.mem_singleton_self _)) with hlost | hnew
      · exact .inr (.inr (List.mem_append_right _ hlost))
      · exact .inl hnew
  · rw [s.device.sample_dropped _ _ _ hdropped, List.length_append, h.dropped]

/-- A step on the server that keeps the readings of the device, and adds others only if they were
sampled, keeps the invariant. -/
theorem Delivered.server (h : s.Delivered c reread first id boot) {server : Server}
    (hrecorded : Recorded c reread server)
    (hkeeps : ∀ key p, s.server.store.lookup (id, key) = some p →
      server.store.lookup (id, key) = some p)
    (honly : ∀ key p, server.store.lookup (id, key) = some p →
      s.server.store.lookup (id, key) = some p ∨ p.reading ∈ s.sampled) :
    Delivered c reread first id boot { s with server := server } := by
  refine ⟨hrecorded, h.device, h.session, h.increasing, h.below, h.ring, h.bounded, ?_,
    h.dropped, ?_⟩
  · intro r hr
    rcases h.accounted r hr with hring | ⟨p, hp, heq⟩ | hevicted
    · exact .inl hring
    · obtain ⟨rfl, -, -⟩ := h.below r hr
      exact .inr (.inl ⟨p, hkeeps r.key p hp, heq⟩)
    · exact .inr (.inr hevicted)
  · intro key p hp
    rcases honly key p hp with hold | hsampled
    · exact h.stored key p hold
    · exact .inr hsampled

/-- A sampled reading under whose identity an equal one is stored is stored itself: the first store
has nothing of its session, and no other sampled reading has its key. -/
theorem Delivered.has (h : s.Delivered c reread first id boot)
    (hboot : ∀ key p, first.lookup (id, key) = some p → key.1 < boot) {r : Reading}
    (hr : r ∈ s.sampled)
    (hstored : ∃ p, s.server.store.lookup r.identity = some p ∧ (p.reading == r) = true) :
    s.server.store.Has r := by
  obtain ⟨p, hp, heq⟩ := hstored
  obtain ⟨hid, hsession, -⟩ := h.below r hr
  have hlookup : s.server.store.lookup (id, r.key) = some p := by
    rw [← hid]
    exact hp
  refine ⟨p, hp, ?_, heq⟩
  -- a stored reading of this session was sampled, and the key names one sample
  rcases h.stored r.key p hlookup with hfirst | hsampled
  · exact absurd (hboot r.key p hfirst) (UInt64.not_lt.mpr hsession)
  · exact eq_of_key_eq h.increasing hsampled hr (congrArg Prod.snd (Reading.identity_of_beq heq))

/-- Dropping readings that the store has from the ring keeps the invariant. -/
theorem Delivered.drain (h : s.Delivered c reread first id boot) {count : Nat}
    (hhas : ∀ r ∈ s.device.ring.take count, s.server.store.Has r) :
    Delivered c reread first id boot
      { s with device := { s.device with ring := s.device.ring.drop count } } := by
  refine ⟨h.recorded, h.device, h.session, h.increasing, h.below,
    (List.drop_sublist count _).trans h.ring, ?_, ?_, h.dropped, h.stored⟩
  · dsimp only
    rw [List.length_drop]
    exact (Nat.sub_le _ _).trans h.bounded
  · intro r hr
    rcases h.accounted r hr with hring | hstored | hevicted
    · rw [← List.take_append_drop count s.device.ring] at hring
      rcases List.mem_append.mp hring with htake | hdrop
      · exact .inr (.inl (hhas r htake))
      · exact .inl hdrop
    · exact .inr (.inl hstored)
    · exact .inr (.inr hevicted)

/-- An attempt to synchronise keeps the invariant, whatever becomes of its request and answer. -/
theorem Delivered.sync (hc : c.Rereads reread) (h : s.Delivered c reread first id boot)
    (hboot : ∀ key p, first.lookup (id, key) = some p → key.1 < boot) (link : Link)
    (receivedMs : Int64) :
    Delivered c reread first id boot { s with
      device := (s.device.sync c (link.send c receivedMs) s.server).1
      server := (s.device.sync c (link.send c receivedMs) s.server).2.1 } := by
  rcases s.device.sync_cases link receivedMs s.server with
    ⟨hdevice, hserver⟩ | ⟨batch, hreadings, hserver, hcases⟩
  · rw [hdevice, hserver]
    exact h
  · obtain ⟨done, hdone, hstore, hwithin, hreply⟩ :=
      Server.ingest_cases (c := c) (w := fun _ => .complete) s.server batch receivedMs
    have hrecorded := h.recorded.ingest hc batch receivedMs
    have hbatch : ∀ e ∈ batch, e.reading ∈ s.device.ring := fun e he =>
      List.mem_of_mem_take (hreadings ▸ List.mem_map_of_mem he)
    rw [hserver]
    -- whatever was stored is from the batch, and hence from the ring
    have hnext := h.server hrecorded (fun key p hp => hwithin _ p hp) fun key p hp => by
      rw [hstore] at hp
      rcases Store.lookup_accept_all_cases hp with hold | ⟨hp, -⟩
      · exact .inl hold
      · exact .inr (h.ring.subset (hbatch p (hdone p hp)))
    rcases hcases with hdevice | ⟨hdevice, n, hn⟩
    · rw [hdevice]
      exact hnext
    · rw [hdevice]
      -- the answer was success, so the store has an equal reading for each one that is dropped
      refine hnext.drain fun r hr => hnext.has hboot (h.ring.subset (List.mem_of_mem_take hr)) ?_
      have hmem : r ∈ batch.map (fun e => e.reading) := hreadings ▸ hr
      obtain ⟨e, he, rfl⟩ := List.mem_map.mp hmem
      exact hreply n hn e he

/-- Every step keeps the invariant, provided that a restart reads the values of the device back as
they were. -/
theorem Delivered.step (hc : c.Rereads reread) (h : s.Delivered c reread first id boot)
    (hboot : ∀ key p, first.lookup (id, key) = some p → key.1 < boot) {action : Action}
    (hreads : s.ReadsBack reread action) (hstep : s.Step c action s') :
    s'.Delivered c reread first id boot := by
  cases hstep with
  | sample timestampMs value quality hsequence hdropped =>
      exact h.sample timestampMs value quality hsequence hdropped
  | reboot hcounter => exact h.reboot hcounter
  | provision secretHex =>
      exact ⟨h.recorded, h.device, h.session, h.increasing, h.below, h.ring, h.bounded,
        h.accounted, h.dropped, h.stored⟩
  | sync link receivedMs => exact h.sync hc hboot link receivedMs
  | @serve call server reply hspares hperform =>
      rw [h.device] at hspares
      have hsame := Server.perform_spares hc h.recorded hspares (fun hcall => by
        rw [hcall, ReadsBack, h.device] at hreads
        exact hreads) hperform
      obtain ⟨server', reply', hperform', hrecorded⟩ := h.recorded.perform hc call
      obtain ⟨rfl, -⟩ := Prod.mk.inj (Option.some.inj (hperform.symm.trans hperform'))
      exact h.server hrecorded (fun key p hp => (hsame key).trans hp)
        fun key p hp => .inl (hsame key ▸ hp)

/-- End-to-end delivery. Take a store after any run of calls and a new device whose boot counter is
above every one stored under its name. Let it sample, reboot, attempt to synchronise, with requests
or answers that may be lost or refused, and be given new secrets, with rotations, restarts and other
calls on the server in between, of which the restarts find for the device only values that are read
back as they were. In every state reached: every reading ever sampled is in the ring, stored under
its identity, or was evicted by a full ring, and `dropped_when_full` counts the evictions; apart
from what it held at first, the store has nothing under the device's name that the device did not
sample; and the ring is strictly increasing in boot counter and sequence number, and bounded. -/
theorem end_to_end_delivery (hc : c.Rereads reread) {calls : List Call} {server : Server}
    (hrun : Server.fresh.run c calls = some server) {id firmware secretHex : String}
    {boot : UInt64}
    (hboot : ∀ key p, server.store.lookup (id, key) = some p → key.1 < boot)
    (hreach : Reachable c (ReadsBack reread) (.start (.new id firmware secretHex boot) server) s) :
    (∀ r ∈ s.sampled, r ∈ s.device.ring ∨ s.server.store.Has r ∨ r ∈ s.evicted) ∧
      s.device.droppedWhenFull.toNat = s.evicted.length ∧
      (∀ key p, s.server.store.lookup (id, key) = some p →
        server.store.lookup (id, key) = some p ∨ p.reading ∈ s.sampled) ∧
      s.device.ring.Pairwise Reading.Before ∧ s.device.ring.length ≤ maxRing := by
  have hdelivered : s.Delivered c reread server.store id boot := by
    induction hreach with
    | refl =>
        obtain ⟨server', hrun', hrecorded⟩ := (recorded_fresh reread).run hc calls
        obtain rfl := Option.some.inj (hrun.symm.trans hrun')
        exact ⟨hrecorded, rfl, UInt64.le_refl boot, .nil, by simp [start], .refl _,
          Nat.zero_le _, by simp [start], rfl, fun _ _ hp => .inl hp⟩
    | step _ hreads hstep ih => exact ih.step hc hboot hreads hstep
  exact ⟨hdelivered.accounted, hdelivered.dropped, hdelivered.stored,
    hdelivered.increasing.sublist hdelivered.ring, hdelivered.bounded⟩

/-- A store with one reading has it under its identity, and nothing under any other. -/
theorem lookup_first (d : DeviceRecord) (e : Envelope) (receivedMs : Int64)
    (id : String × SessionKey) :
    (Store.replay [.registered d, .readingAccepted e receivedMs]).lookup id =
      if e.reading.identity = id then some e else none := by
  have hnone : (Store.empty.apply (.registered d)).lookup id = none :=
    NestedMap.find_empty id.1 id.2
  rw [← hnone]
  exact Store.lookup_accept ..

/-- A registered device samples its first reading, which the server stores with success before it is
restarted. -/
theorem first_delivery {value : F64} (hfinite : value.isFinite = true) :
    ∃ server e server', Server.fresh.run .reference [.register "d" "00" "1"] = some server ∧
      (∀ key, server.store.lookup ("d", key) = none) ∧
      e.reading = ⟨"d", "1", 0, 10, 1, value, "ok"⟩ ∧
      server'.store =
        Store.replay [.registered (.initial "d" "00" "1"), .readingAccepted e 20] ∧
      ∃ s, Step .reference (start (.new "d" "1" "00" 1) server) (.sample 10 value "ok") s ∧
        Step .reference s (.sync .answered 20)
          ⟨⟨"d", "1", "00", 1, 1, [], 0⟩, server', [e.reading], []⟩ ∧
        Step .reference ⟨⟨"d", "1", "00", 1, 1, [], 0⟩, server', [e.reading], []⟩ (.serve .reopen)
          ⟨⟨"d", "1", "00", 1, 1, [], 0⟩, ⟨server'.store.mapValue Json.reread, server'.log⟩,
            [e.reading], []⟩ := by
  obtain ⟨e, server', hsigned, hreading, -, hingest, -, hstore, hsealed⟩ :=
    Server.first_reading (r := ⟨"d", "1", 0, 10, 1, value, "ok"⟩) hfinite (by simp) 20
  let registered : Event := .registered (.initial "d" "00" "1")
  let server : Server := ⟨Store.empty.apply registered, Server.lineBytes (Json.print registered)⟩
  have hnone : ∀ id, server.store.lookup id = none := fun id => NestedMap.find_empty id.1 id.2
  have hroom : (0 : UInt64).toNat + 1 < UInt64.size := by decide
  have hsampled : Step .reference (start (.new "d" "1" "00" 1) server) (.sample 10 value "ok")
      ⟨⟨"d", "1", "00", 1, 1, [e.reading], 0⟩, server, [e.reading], []⟩ := by
    rw [hreading]
    exact .sample 10 value "ok" hroom hroom
  have hsync : DeviceSimulator.sync .reference (Link.answered.send .reference 20)
      ⟨"d", "1", "00", 1, 1, [e.reading], 0⟩ server =
        (⟨"d", "1", "00", 1, 1, [], 0⟩, server', .ok 1) := by
    have hbatch : ([e.reading].take maxBatch).mapM (signed .reference "00") = .ok [e] := by
      rw [List.take_of_length_le (by simp [maxBatch]), List.mapM_cons, hreading, hsigned]
      rfl
    exact DeviceSimulator.sync_ok hbatch (List.cons_ne_nil e []) hingest (Nat.le_refl 1)
  have hstep : Step .reference ⟨⟨"d", "1", "00", 1, 1, [e.reading], 0⟩, server, [e.reading], []⟩
      (.sync .answered 20) _ := .sync .answered 20
  rw [hsync] at hstep
  have hrestart := hsealed.reopen reference_rereads fun _ => .complete
  rw [← hstore] at hrestart
  exact ⟨server, e, server', Server.run_register rfl rfl, fun key => hnone _, hreading, hstore, _,
    hsampled, hstep, .serve trivial hrestart⟩

/-- The rule at a reading that is stored with success, and a restart after it. -/
theorem end_to_end_delivery_restarted :
    ∃ server s, Server.fresh.run .reference [.register "d" "00" "1"] = some server ∧
      Reachable .reference (ReadsBack Json.reread) (.start (.new "d" "1" "00" 1) server) s ∧
      s.device.ring = [] ∧ s.evicted = [] ∧ s.sampled.length = 1 ∧
      ∀ r ∈ s.sampled, s.server.store.Has r := by
  obtain ⟨server, e, server', hrun, hnone, hreading, hstore, s, hsampled, hsynced, hrestarted⟩ :=
    first_delivery (by decide : F64.isFinite ⟨0x3FF0000000000000⟩ = true)
  have hboot : ∀ key p, server.store.lookup ("d", key) = some p → key.1 < 1 := by
    intro key p hp
    exact absurd (hp.symm.trans (hnone key)) (Option.some_ne_none p)
  have hkept : e.mapValue Json.reread = e :=
    Envelope.map_value_eq (by rw [hreading]; exact Json.reread_one)
  have hreads : ReadsBack Json.reread ⟨⟨"d", "1", "00", 1, 1, [], 0⟩, server', [e.reading], []⟩
      (.serve .reopen) := by
    intro key p hp
    rw [hstore, lookup_first] at hp
    split at hp
    · obtain rfl := Option.some.inj hp
      exact hkept
    · cases hp
  have hreach := ((Reachable.refl.step trivial hsampled).step trivial hsynced).step hreads
    hrestarted
  refine ⟨server, _, hrun, hreach, rfl, rfl, rfl, fun r hr => ?_⟩
  rcases (end_to_end_delivery reference_rereads hrun hboot hreach).1 r hr with hring | hhas | hlost
  · exact absurd hring List.not_mem_nil
  · exact hhas
  · exact absurd hlost List.not_mem_nil

/-- A restart that reads another value: the reading has left the ring with success and was not
evicted, and under its identity the store has a reading that was never sampled. -/
theorem restart_changes_reading :
    ∃ server s r, Server.fresh.run .reference [.register "d" "00" "1"] = some server ∧
      (∀ key, server.store.lookup ("d", key) = none) ∧
      Reachable .reference (fun _ _ => True) (.start (.new "d" "1" "00" 1) server) s ∧
      r ∈ s.sampled ∧ ¬ (r ∈ s.device.ring ∨ s.server.store.Has r ∨ r ∈ s.evicted) ∧
      ∃ p, s.server.store.lookup r.identity = some p ∧ p.reading ∉ s.sampled := by
  obtain ⟨server, e, server', hrun, hnone, hreading, hstore, s, hsampled, hsynced, hrestarted⟩ :=
    first_delivery (by decide : F64.isFinite ⟨0x403B294CAEEF042E⟩ = true)
  have hreach : Reachable .reference (fun _ _ => True) _ _ :=
    ((Reachable.refl.step trivial hsampled).step trivial hsynced).step trivial hrestarted
  have hread : (server'.store.mapValue Json.reread).lookup e.reading.identity =
      some (e.mapValue Json.reread) := by
    have hlookup := lookup_first (.initial "d" "00" "1") e 20 e.reading.identity
    rw [if_pos rfl, ← hstore] at hlookup
    refine (Store.find_map_value ..).trans ?_
    rw [show NestedMap.find _ _ _ = some e from hlookup, Option.map_some]
  have hother : (e.mapValue Json.reread).reading ≠ e.reading := by
    intro heq
    have hvalue : Json.reread e.reading.value = e.reading.value := congrArg Reading.value heq
    rw [hreading, Json.reread_below] at hvalue
    exact absurd (congrArg F64.bits hvalue) (by decide)
  refine ⟨server, _, e.reading, hrun, hnone, hreach, List.mem_singleton_self _, ?_, _, hread,
    fun hmem => hother (List.mem_singleton.mp hmem)⟩
  rintro (hring | ⟨p, hp, hsame, -⟩ | hlost)
  · exact List.not_mem_nil hring
  · obtain rfl := Option.some.inj (hread.symm.trans hp)
    exact hother hsame
  · exact List.not_mem_nil hlost

end Delivery

end Fieldbus.Cloud
