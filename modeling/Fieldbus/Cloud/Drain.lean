import Fieldbus.Cloud.Confluence
import Fieldbus.Cloud.Device
import Fieldbus.Cloud.Signature

/-!
# When a device can drain its ring

`DeviceSimulator.sample` takes any value and any quality, `ingest` refuses a batch with a value that
is not finite or an empty quality. `Sampled` is a history of a device. `sync_drains_iff` says when a
synchronisation over a fault-free link removes the oldest readings, and what becomes of the ring
when it is repeated.
-/

namespace Fieldbus.Cloud

variable {c : Crates}

namespace DeviceSimulator

/-- The histories of a device: the device they lead to, the readings it has taken, and the number of
samples and reboots. A synchronisation may use any closure and have any result. -/
inductive Sampled (c : Crates) (first : DeviceSimulator) :
    DeviceSimulator → List Reading → Nat → Prop
  | start : Sampled c first first [] 0
  | sample {d readings steps} (timestampMs : Int64) (value : F64) (quality : String) :
      Sampled c first d readings steps →
      Sampled c first (d.sample timestampMs value quality)
        (readings ++ [d.next timestampMs value quality]) (steps + 1)
  | reboot {d readings steps} :
      Sampled c first d readings steps → Sampled c first d.reboot readings (steps + 1)
  | sync {d readings steps} {σ : Type} (send : List Envelope → σ → σ × Except Error Nat)
      (link : σ) :
      Sampled c first d readings steps → Sampled c first (d.sync c send link).1 readings steps

/-- A synchronisation drops readings from the front of the ring at most. -/
theorem sync_ring {σ : Type} (d : DeviceSimulator)
    (send : List Envelope → σ → σ × Except Error Nat) (link : σ) :
    ∃ count, (d.sync c send link).1 = { d with ring := d.ring.drop count } := by
  unfold sync
  split
  · exact ⟨0, rfl⟩
  · rename_i batch hbatch
    split
    · exact ⟨0, rfl⟩
    · split
      · exact ⟨0, rfl⟩
      · split
        · exact ⟨0, rfl⟩
        · exact ⟨batch.length, rfl⟩

/-- What holds of a device and the readings it has taken, after the given numbers of reboots and of
samples since the last one. -/
structure Numbered (first d : DeviceSimulator) (readings : List Reading)
    (reboots samples : Nat) : Prop where
  deviceId : d.deviceId = first.deviceId
  secretHex : d.secretHex = first.secretHex
  boot : d.bootCounter = first.bootCounter + UInt64.ofNat reboots
  sequence : d.nextSequence = UInt64.ofNat samples
  taken : ∀ r ∈ readings, r.deviceId = first.deviceId ∧ ∃ session index,
    r.key = (first.bootCounter + UInt64.ofNat session, UInt64.ofNat index) ∧
      (session < reboots ∨ session = reboots ∧ index < samples)
  distinct : (readings.map Reading.key).Nodup
  ring : d.ring.Sublist readings

variable {first d : DeviceSimulator} {readings : List Reading} {reboots samples : Nat}

theorem Numbered.reboot (h : Numbered first d readings reboots samples) :
    Numbered first d.reboot readings (reboots + 1) 0 where
  deviceId := h.deviceId
  secretHex := h.secretHex
  boot := by
    show d.bootCounter + 1 = _
    rw [h.boot, UInt64.ofNat_add, UInt64.add_assoc]
    rfl
  sequence := rfl
  taken := fun r hr => by
    obtain ⟨hid, session, index, hkey, hbefore⟩ := h.taken r hr
    exact ⟨hid, session, index, hkey, .inl (by omega)⟩
  distinct := h.distinct
  ring := h.ring

/-- Counters below `2 ^ 64` do not wrap. -/
theorem ofNat_inj {a b : Nat} (ha : a < 2 ^ 64) (hb : b < 2 ^ 64)
    (h : UInt64.ofNat a = UInt64.ofNat b) : a = b := by
  have hnat := congrArg UInt64.toNat h
  rwa [UInt64.toNat_ofNat_of_lt' ha, UInt64.toNat_ofNat_of_lt' hb] at hnat

/-- The next reading has a key of its own as long as the counters have not come round. -/
theorem Numbered.next_key (h : Numbered first d readings reboots samples)
    (hreboots : reboots < 2 ^ 64) (hsamples : samples < 2 ^ 64) (timestampMs : Int64)
    (value : F64) (quality : String) :
    ∀ r ∈ readings, r.key ≠ (d.next timestampMs value quality).key := by
  intro r hr heq
  obtain ⟨-, session, index, hkey, hbefore⟩ := h.taken r hr
  have hnext : (d.next timestampMs value quality).key =
      (first.bootCounter + UInt64.ofNat reboots, UInt64.ofNat samples) := by
    rw [← h.boot, ← h.sequence]
    rfl
  rw [hkey, hnext, Prod.mk.injEq, UInt64.add_right_inj] at heq
  obtain rfl := ofNat_inj (by omega) hreboots heq.1
  have hindex := ofNat_inj (by omega) hsamples heq.2
  omega

/-- A sample takes the next number of the session. -/
theorem Numbered.sample (h : Numbered first d readings reboots samples)
    (hreboots : reboots < 2 ^ 64) (hsamples : samples < 2 ^ 64) (timestampMs : Int64)
    (value : F64) (quality : String) :
    Numbered first (d.sample timestampMs value quality)
      (readings ++ [d.next timestampMs value quality]) reboots (samples + 1) := by
  have hring := List.sublist_append_right d.evicts (d.sample timestampMs value quality).ring
  rw [d.evicts_append_ring] at hring
  rw [sample_eq] at hring ⊢
  refine ⟨h.deviceId, h.secretHex, h.boot, ?_, ?_, ?_, hring.trans (h.ring.append_right _)⟩
  · show d.nextSequence + 1 = _
    rw [h.sequence, UInt64.ofNat_add]
    rfl
  · refine List.forall_mem_append.mpr ⟨fun r hr => ?_, List.forall_mem_singleton.mpr
      ⟨h.deviceId, reboots, samples, ?_, .inr ⟨rfl, Nat.lt_succ_self _⟩⟩⟩
    · obtain ⟨hid, session, index, hkey, hbefore⟩ := h.taken r hr
      exact ⟨hid, session, index, hkey, by omega⟩
    · rw [← h.boot, ← h.sequence]
      rfl
  · rw [List.map_append, List.map_singleton]
    refine List.nodup_append.mpr ⟨h.distinct, List.nodup_singleton _, ?_⟩
    rintro key hkey _ hnext rfl
    obtain ⟨r, hr, rfl⟩ := List.mem_map.mp hkey
    exact h.next_key hreboots hsamples timestampMs value quality r hr (List.mem_singleton.mp hnext)

theorem Numbered.sync (h : Numbered first d readings reboots samples) {σ : Type}
    (send : List Envelope → σ → σ × Except Error Nat) (link : σ) :
    Numbered first (d.sync c send link).1 readings reboots samples := by
  obtain ⟨count, hring⟩ := d.sync_ring (c := c) send link
  rw [hring]
  exact ⟨h.deviceId, h.secretHex, h.boot, h.sequence, h.taken, h.distinct,
    (List.drop_sublist count _).trans h.ring⟩

/-- A history of fewer than `2 ^ 64` samples and reboots numbers its readings. -/
theorem Sampled.numbered {id firmware secretHex : String} {boot : UInt64} {steps : Nat}
    (h : Sampled c (.new id firmware secretHex boot) d readings steps) (hsteps : steps < 2 ^ 64) :
    ∃ reboots samples, reboots + samples ≤ steps ∧
      Numbered (.new id firmware secretHex boot) d readings reboots samples := by
  induction h with
  | start =>
      refine ⟨0, 0, Nat.le_refl 0, rfl, rfl, ?_, rfl, by simp, .nil, .refl _⟩
      exact (UInt64.add_zero _).symm
  | sample timestampMs value quality _ ih =>
      obtain ⟨reboots, samples, hle, hnumbered⟩ := ih (by omega)
      exact ⟨reboots, samples + 1, by omega,
        hnumbered.sample (by omega) (by omega) timestampMs value quality⟩
  | reboot _ ih =>
      obtain ⟨reboots, samples, hle, hnumbered⟩ := ih (by omega)
      exact ⟨reboots + 1, 0, by omega, hnumbered.reboot⟩
  | sync send link _ ih =>
      obtain ⟨reboots, samples, hle, hnumbered⟩ := ih hsteps
      exact ⟨reboots, samples, hle, hnumbered.sync send link⟩

/-- A history puts readings under the device's own name in its ring. -/
theorem Sampled.own {first d : DeviceSimulator} {readings : List Reading} {steps : Nat}
    (h : Sampled c first d readings steps) (hfirst : first.ring = []) :
    ∀ r ∈ d.ring, r.deviceId = d.deviceId := by
  induction h with
  | start => simp [hfirst]
  | @sample d readings steps timestampMs value quality _ ih =>
      rw [sample_eq]
      intro r hr
      rcases List.mem_append.mp hr with hold | hnew
      · split at hold
        · exact ih r (List.mem_of_mem_tail hold)
        · exact ih r hold
      · rw [List.mem_singleton.mp hnew]
        rfl
  | reboot _ ih => exact ih
  | @sync d readings steps σ send link _ ih =>
      obtain ⟨count, hring⟩ := d.sync_ring (c := c) send link
      rw [hring]
      exact fun r hr => ih r (List.mem_of_mem_drop hr)

end DeviceSimulator

/-- What `ingest` demands of a reading by itself. -/
def Reading.Sane (r : Reading) : Prop := r.value.isFinite = true ∧ r.quality ≠ ""

namespace Store

/-- Readings that share an identity, with the store or with each other, are equal. -/
structure Agreeing (s : Store) (readings : List Reading) : Prop where
  stored : ∀ r ∈ readings, ∀ p, s.lookup r.identity = some p → (p.reading == r) = true
  among : ∀ r ∈ readings, ∀ r' ∈ readings, r.identity = r'.identity → (r == r') = true

/-- There is room for those of the readings that are not stored yet. -/
def Fits (s : Store) (readings : List Reading) : Prop :=
  s.readingCount + ((readings.map Reading.identity).toFinset.filter fun id =>
    (s.lookup id).isNone).card ≤ maxStoredReadings

/-- The device is registered with the secret it signs with, one that registration accepts. -/
structure Serves (s : Store) (d : DeviceSimulator) : Prop where
  registered : ∃ record, s.devices[d.deviceId]? = some record ∧ record.secretHex = d.secretHex
  accepted : ∃ key, unhex d.secretHex = .ok key

/-- Readings fit where there is room for all of them. -/
theorem fits_of_length {s : Store} {readings : List Reading}
    (h : s.readingCount + readings.length ≤ maxStoredReadings) : s.Fits readings := by
  refine (Nat.add_le_add_left ((Finset.card_filter_le _ _).trans ?_) _).trans h
  exact (List.toFinset_card_le _).trans_eq (List.length_map _)

/-- A store with one device serves it. -/
theorem serves_registered {d : DeviceSimulator} {id secretHex firmwareVersion : String}
    {key : List UInt8} (hid : d.deviceId = id) (hsecret : d.secretHex = secretHex)
    (hkey : unhex secretHex = .ok key) :
    (replay [.registered (.initial id secretHex firmwareVersion)]).Serves d :=
  ⟨⟨.initial id secretHex firmwareVersion, by simp [replay, apply, DeviceRecord.initial, hid],
    hsecret.symm⟩, key, hsecret ▸ hkey⟩

/-- Every envelope is stored under the identity of its reading. -/
def Keyed (s : Store) : Prop := ∀ id p, s.lookup id = some p → p.reading.identity = id

theorem Keyed.apply {s : Store} (h : s.Keyed) (event : Event) : (s.apply event).Keyed := by
  cases event with
  | readingAccepted e receivedMs =>
      intro id p hp
      rw [lookup_accept] at hp
      split at hp
      · obtain rfl := Option.some.inj hp
        assumption
      · exact h id p hp
  | registered | credentialRotated | firmwarePublished | configPublished => exact h

theorem keyed_replay (events : List Event) : (replay events).Keyed := by
  have hfold : ∀ s : Store, s.Keyed → (events.foldl Store.apply s).Keyed := by
    induction events with
    | nil => exact fun s h => h
    | cons event rest ih => exact fun s h => ih _ (h.apply event)
  exact hfold .empty fun id p hp => by
    rw [lookup, empty, NestedMap.find_empty] at hp
    cases hp

variable {s : Store} {d : DeviceSimulator} {readings : List Reading} {batch : List Envelope}

theorem Agreeing.sublist {some : List Reading} (h : s.Agreeing readings)
    (hsub : some.Sublist readings) : s.Agreeing some :=
  ⟨fun r hr => h.stored r (hsub.subset hr),
    fun r hr r' hr' => h.among r (hsub.subset hr) r' (hsub.subset hr')⟩

/-- An acceptable batch has sane readings that agree. -/
theorem Acceptable.sane (h : s.Acceptable c batch) :
    (∀ r ∈ batch.map fun e => e.reading, r.Sane) ∧ s.Agreeing (batch.map fun e => e.reading) :=
  ⟨List.forall_mem_map.mpr fun e he => ⟨(h.valid e he).finite, (h.valid e he).quality⟩,
    List.forall_mem_map.mpr h.consistent.stored,
    List.forall_mem_map.mpr fun e he => List.forall_mem_map.mpr (h.consistent.batch e he)⟩

/-- The device's own readings may be stored together if they are sane, agree and fit. -/
theorem storable_of_sane (hserves : s.Serves d) (hown : ∀ r ∈ readings, r.deviceId = d.deviceId)
    (hbatch : readings.mapM (signed c d.secretHex) = .ok batch) (hsane : ∀ r ∈ readings, r.Sane)
    (hagreeing : s.Agreeing readings) (hfits : s.Fits readings) : s.Storable c batch := by
  obtain ⟨rfl, hsigned⟩ := signed_batch hbatch
  obtain ⟨record, hrecord, hsecret⟩ := hserves.registered
  rw [List.forall_mem_map] at hown hsane
  rw [Fits, List.map_map] at hfits
  refine ⟨fun e he => ⟨(hsigned e he).1, ⟨record, ?_, ?_⟩, (hsane e he).1, (hsane e he).2⟩,
    ⟨List.forall_mem_map.mp hagreeing.stored, fun e he =>
      List.forall_mem_map.mp (hagreeing.among _ (List.mem_map_of_mem he))⟩, hfits⟩
  · rw [hown e he]
    exact hrecord
  · rw [hsecret]
    exact (hsigned e he).2

end Store

namespace DeviceSimulator

variable {d : DeviceSimulator} {s : Server} {readings : List Reading} {batch : List Envelope}

/-- Sane readings can be signed. -/
theorem signed_of_sane (hj : c.Serializes) (hserves : s.store.Serves d)
    (hsane : ∀ r ∈ readings, r.Sane) :
    ∃ batch, readings.mapM (signed c d.secretHex) = .ok batch := by
  obtain ⟨key, hkey⟩ := hserves.accepted
  exact signed_batch_ok fun r hr => exists_sign hj hkey (hsane r hr).1

/-! ## One synchronisation -/

/-- A synchronisation over a fault-free link, with the time at which the batch is received. -/
def attempt (c : Crates) (state : DeviceSimulator × Server) (receivedMs : Int64) :
    (DeviceSimulator × Server) × Except Error Nat :=
  let r := state.1.sync c (Link.answered.send c receivedMs) state.2
  ((r.1, r.2.1), r.2.2)

/-- The synchronisation succeeds and removes the oldest readings, as many as a batch holds. -/
def Drains (c : Crates) (d : DeviceSimulator) (s : Server) (receivedMs : Int64) : Prop :=
  (∃ n, (attempt c (d, s) receivedMs).2 = .ok n) ∧
    (attempt c (d, s) receivedMs).1.1.ring = d.ring.drop (min maxBatch d.pending)

theorem drop_pending (d : DeviceSimulator) :
    d.ring.drop (min maxBatch d.pending) = d.ring.drop maxBatch := by
  rw [pending, List.drop_eq_drop_iff]
  omega

/-- A batch that may be stored is stored and leaves the ring. -/
theorem attempt_stores (ht : c.Total)
    (hbatch : (d.ring.take maxBatch).mapM (signed c d.secretHex) = .ok batch)
    (h : Store.Storable c s.store batch) (receivedMs : Int64) :
    ∃ s' n, attempt c (d, s) receivedMs = (({ d with ring := d.ring.drop maxBatch }, s'), .ok n) ∧
      Store.Stored s.store s'.store batch := by
  have hreadings := (signed_batch hbatch).1
  have hlength : batch.length = min maxBatch d.ring.length := by
    rw [← List.length_map (fun e : Envelope => e.reading), hreadings, List.length_take]
  by_cases hempty : batch = []
  · obtain rfl := hempty
    have hring : d.ring = [] := by
      have hpos : 0 < maxBatch := by decide
      rw [List.length_nil] at hlength
      exact List.length_eq_zero_iff.mp (by omega)
    refine ⟨s, 0, ?_, fun _ _ hp => hp, fun _ _ hp => .inl hp, by simp, .refl _, ?_⟩
    · simp only [attempt, sync, hbatch, List.isEmpty_nil, if_true]
      rw [hring, List.drop_nil, ← hring]
    · simp [Store.newIdentities]
  · have hnonempty := List.length_pos_iff.mpr hempty
    have hbounded : batch.length ≤ maxBatch := hlength.trans_le (Nat.min_le_left _ _)
    obtain ⟨hreply, hstored⟩ :=
      Server.deliver_stores ht (show 1 ≤ (receivedMs, batch).2.length from hnonempty) hbounded h
    have hcount : ¬ (s.store.newIdentities batch).card > batch.length :=
      Nat.not_lt.mpr (s.store.newIdentities_card_le batch)
    have hsend : Link.answered.send c receivedMs batch s =
        ((s.deliver c (receivedMs, batch)).1, .ok (s.store.newIdentities batch).card) :=
      Prod.ext rfl hreply
    refine ⟨(s.deliver c (receivedMs, batch)).1, (s.store.newIdentities batch).card, ?_, hstored⟩
    simp only [attempt, sync, hbatch, List.isEmpty_eq_false_iff.mpr hempty, Bool.false_eq_true,
      if_false, hsend, if_neg hcount, drop_batch hreadings]

/-- What leaves the ring is sane and agrees. -/
theorem attempt_cases (d : DeviceSimulator) (s : Server) (receivedMs : Int64) :
    (attempt c (d, s) receivedMs).1.1.ring = d.ring ∨
      (attempt c (d, s) receivedMs).1.1.ring = d.ring.drop maxBatch ∧
        (∀ r ∈ d.ring.take maxBatch, r.Sane) ∧ s.store.Agreeing (d.ring.take maxBatch) := by
  rcases d.sync_cases .answered receivedMs s with
    ⟨hdevice, -⟩ | ⟨batch, hreadings, -, hdevice | ⟨hdevice, n, hok⟩⟩
  · exact .inl (congrArg ring hdevice)
  · exact .inl (congrArg ring hdevice)
  · right
    have hacceptable : s.store.Acceptable c batch := by
      by_contra h
      obtain ⟨error, herror⟩ :=
        Server.ingest_of_not_acceptable h receivedMs fun _ => .complete
      rw [herror] at hok
      cases hok
    rw [← hreadings]
    exact ⟨congrArg ring hdevice, hacceptable.sane⟩

/-- A synchronisation that removes the oldest readings finds them sane and in agreement. -/
theorem Drains.sane {receivedMs : Int64} (h : Drains c d s receivedMs) :
    (∀ r ∈ d.ring.take maxBatch, r.Sane) ∧ s.store.Agreeing (d.ring.take maxBatch) := by
  obtain ⟨-, hring⟩ := h
  rcases attempt_cases (c := c) d s receivedMs with hsame | ⟨-, hsane⟩
  · -- nothing was removed, so there was nothing to remove
    have hempty : d.ring = [] := by
      have hlength := congrArg List.length (hsame.symm.trans hring)
      have hpos : 0 < maxBatch := by decide
      rw [List.length_drop, pending] at hlength
      exact List.length_eq_zero_iff.mp (by omega)
    rw [hempty, List.take_nil]
    exact ⟨by simp, by simp, by simp⟩
  · exact hsane

/-! ## Repeated synchronisation -/

/-- A reading that is not sane never leaves the ring. -/
theorem attempts_keep {r : Reading} (hinsane : ¬ r.Sane) (hr : r ∈ d.ring) (times : List Int64) :
    r ∈ (Machine.final (attempt c) (d, s) times).1.ring := by
  refine Machine.final_invariant (fun state : DeviceSimulator × Server => r ∈ state.1.ring)
    (fun (d, s) receivedMs hr => ?_) hr times
  rcases attempt_cases (c := c) d s receivedMs with hsame | ⟨hdrop, hsane, -⟩
  · rw [hsame]
    exact hr
  · rw [hdrop]
    rw [← List.take_append_drop maxBatch d.ring] at hr
    rcases List.mem_append.mp hr with htaken | hleft
    · exact absurd (hsane r htaken) hinsane
    · exact hleft

/-- The ring can be signed, and all of it may be stored. -/
def Ready (c : Crates) (state : DeviceSimulator × Server) : Prop :=
  ∃ es, state.1.ring.mapM (signed c state.1.secretHex) = .ok es ∧
    Store.Storable c state.2.store es

/-- A synchronisation removes a batch and leaves what is ready for the next. -/
theorem ready_attempt (ht : c.Total) {state : DeviceSimulator × Server} (h : Ready c state)
    (receivedMs : Int64) : Ready c (attempt c state receivedMs).1 ∧
      (attempt c state receivedMs).1.1.ring = state.1.ring.drop maxBatch := by
  obtain ⟨d, s⟩ := state
  obtain ⟨es, hes, hstorable⟩ := h
  rw [← List.take_append_drop maxBatch d.ring] at hes
  obtain ⟨batch, rest, hbatch, hrest, rfl⟩ := Fallible.mapM_append_ok_iff.mp hes
  obtain ⟨s', n, hattempt, hstored⟩ := attempt_stores ht hbatch hstorable.left receivedMs
  rw [hattempt]
  exact ⟨⟨rest, hrest, hstorable.rest hstored⟩, rfl⟩

/-- Every synchronisation of a run removes a batch. -/
theorem ready_attempts (ht : c.Total) {state : DeviceSimulator × Server} (h : Ready c state)
    (times : List Int64) : (Machine.final (attempt c) state times).1.ring =
      state.1.ring.drop (maxBatch * times.length) := by
  induction times generalizing state with
  | nil => rfl
  | cons receivedMs rest ih =>
      obtain ⟨hready, hring⟩ := ready_attempt ht h receivedMs
      rw [Machine.final_cons, ih hready, hring, List.drop_drop, List.length_cons, Nat.mul_succ,
        Nat.add_comm]

/-! ## Histories -/

/-- Below `2 ^ 64` samples and reboots, readings of a history agree with each other and with a store
that holds none of the device's readings but those of the history. -/
theorem Sampled.agreeing {id firmware secretHex : String} {boot : UInt64} {steps : Nat}
    (h : Sampled c (.new id firmware secretHex boot) d readings steps) (hsteps : steps < 2 ^ 64)
    (hkeyed : s.store.Keyed)
    (hsent : ∀ i p, s.store.lookup i = some p → i.1 = d.deviceId → p.reading ∈ readings)
    {part : List Reading} (hpart : part.Sublist d.ring) (hsane : ∀ r ∈ part, r.Sane) :
    s.store.Agreeing part := by
  obtain ⟨reboots, samples, -, hnumbered⟩ := h.numbered hsteps
  have htaken : ∀ r ∈ part, r ∈ readings := fun r hr => (hpart.trans hnumbered.ring).subset hr
  have hown : ∀ r ∈ part, r.deviceId = d.deviceId := fun r hr =>
    (hnumbered.taken r (htaken r hr)).1.trans hnumbered.deviceId.symm
  -- a reading of the history is determined by its identity
  have hsame : ∀ r ∈ part, ∀ r' ∈ readings, r'.identity = r.identity → (r' == r) = true := by
    intro r hr r' hr' hid
    obtain rfl := List.inj_on_of_nodup_map hnumbered.distinct hr' (htaken r hr)
      (Prod.ext_iff.mp hid).2
    exact Reading.beq_of_finite (hsane r' hr).1
  exact ⟨fun r hr p hp => hsame r hr p.reading (hsent _ p hp (hown r hr)) (hkeyed _ p hp),
    fun r hr r' hr' hid => hsame r' hr' r (htaken r hr) hid⟩

/-- When a device drains. Take a device after any history, and a store that serves it, holds none of
its readings but those of the history and has room. A synchronisation over a fault-free link
succeeds and removes the oldest `min maxBatch pending` readings exactly when these are sane and
agree. Below `2 ^ 64` samples and reboots they always agree; repeated synchronisations then empty
the ring exactly when every reading in it is sane. -/
theorem sync_drains_iff (ht : c.Total) (hj : c.Serializes) {id firmware secretHex : String}
    {boot : UInt64} {steps : Nat} {events : List Event}
    (hhistory : Sampled c (.new id firmware secretHex boot) d readings steps)
    (hstore : s.store = .replay events) (hserves : s.store.Serves d)
    (hsent : ∀ i p, s.store.lookup i = some p → i.1 = d.deviceId → p.reading ∈ readings)
    (hroom : s.store.Fits (d.ring.take maxBatch)) (receivedMs : Int64) :
    (Drains c d s receivedMs ↔
        (∀ r ∈ d.ring.take maxBatch, r.Sane) ∧ s.store.Agreeing (d.ring.take maxBatch)) ∧
      (steps < 2 ^ 64 →
        (Drains c d s receivedMs ↔ ∀ r ∈ d.ring.take maxBatch, r.Sane) ∧
        ∀ times : List Int64, s.store.Fits d.ring → d.pending ≤ maxBatch * times.length →
          ((Machine.final (attempt c) (d, s) times).1.ring = [] ↔ ∀ r ∈ d.ring, r.Sane)) := by
  have hkeyed : s.store.Keyed := by
    rw [hstore]
    exact Store.keyed_replay events
  have hown := hhistory.own rfl
  have hdrains : (∀ r ∈ d.ring.take maxBatch, r.Sane) →
      s.store.Agreeing (d.ring.take maxBatch) → Drains c d s receivedMs := by
    intro hsane hagreeing
    obtain ⟨batch, hbatch⟩ := signed_of_sane hj hserves hsane
    obtain ⟨s', n, hattempt, -⟩ := attempt_stores ht hbatch (Store.storable_of_sane hserves
      (fun r hr => hown r (List.mem_of_mem_take hr)) hbatch hsane hagreeing hroom) receivedMs
    rw [Drains, hattempt, d.drop_pending]
    exact ⟨⟨n, rfl⟩, rfl⟩
  refine ⟨⟨Drains.sane, fun ⟨hsane, hagreeing⟩ => hdrains hsane hagreeing⟩, fun hsteps =>
    ⟨⟨fun h => h.sane.1, fun hsane => hdrains hsane (hhistory.agreeing hsteps hkeyed hsent
      (List.take_sublist _ _) hsane)⟩, fun times hfits htimes => ⟨fun hempty r hr => ?_,
      fun hsane => ?_⟩⟩⟩
  · by_contra hinsane
    have hkept := attempts_keep (c := c) (s := s) hinsane hr times
    rw [hempty] at hkept
    exact List.not_mem_nil hkept
  · obtain ⟨es, hes⟩ := signed_of_sane hj hserves hsane
    have hready : Ready c (d, s) := ⟨es, hes, Store.storable_of_sane hserves hown hes hsane
      (hhistory.agreeing hsteps hkeyed hsent (.refl _) hsane) hfits⟩
    rw [ready_attempts ht hready, List.drop_eq_nil_iff]
    exact htimes

/-- The rule at a device with one reading, on a store without readings. -/
theorem sync_drains_iff_one :
    let d := (DeviceSimulator.new "d" "1" "00" 1).sample 10 ⟨0x3FF0000000000000⟩ "ok"
    let s : Server := ⟨.replay [.registered (.initial "d" "00" "1")], []⟩
    Drains .reference d s 20 ∧
      (Machine.final (attempt .reference) (d, s) [20]).1.ring = [] := by
  intro d s
  have hhistory : Sampled .reference (.new "d" "1" "00" 1) d _ 1 :=
    .sample 10 ⟨0x3FF0000000000000⟩ "ok" .start
  have hnone : ∀ id, s.store.lookup id = none := fun id => NestedMap.find_empty id.1 id.2
  have hsane : ∀ r ∈ d.ring, r.Sane := by
    intro r hr
    obtain rfl := List.mem_singleton.mp hr
    exact ⟨by decide, by decide⟩
  obtain ⟨-, hsmall⟩ := sync_drains_iff reference_total reference_serializes hhistory rfl
    (Store.serves_registered rfl rfl (show unhex "00" = .ok [0] from rfl))
    (fun i p hp => absurd ((hnone i).symm.trans hp) (Option.some_ne_none p).symm)
    (s := s) (Store.fits_of_length (Nat.le_of_ble_eq_true rfl)) 20
  obtain ⟨hdrains, hempty⟩ := hsmall (by decide)
  exact ⟨hdrains.mpr fun r hr => hsane r (List.mem_of_mem_take hr),
    (hempty [20] (Store.fits_of_length (Nat.le_of_ble_eq_true rfl)) (by decide)).mpr hsane⟩

/-- A reading with an empty quality is sampled and signed, but never accepted: no synchronisation
drains the ring and no number of them empties it, although the device is served, there is room and
the reading behind it is sane. -/
theorem empty_quality_blocks_ring :
    let d := ((DeviceSimulator.new "d" "1" "00" 1).sample 10 ⟨0x3FF0000000000000⟩ "").sample 11
      ⟨0x3FF0000000000000⟩ "ok"
    let s : Server := ⟨.replay [.registered (.initial "d" "00" "1")], []⟩
    s.store.Serves d ∧ s.store.readingCount + d.pending ≤ maxStoredReadings ∧
      (∀ id, s.store.lookup id = none) ∧ (∀ receivedMs, ¬ Drains .reference d s receivedMs) ∧
      ∀ times, (Machine.final (attempt .reference) (d, s) times).1.ring ≠ [] := by
  intro d s
  let first : Reading := ⟨"d", "1", 0, 10, 1, ⟨0x3FF0000000000000⟩, ""⟩
  have hinsane : ¬ first.Sane := fun h => h.2 rfl
  have hfirst : first ∈ d.ring := List.mem_cons_self
  refine ⟨Store.serves_registered rfl rfl (show unhex "00" = .ok [0] from rfl),
    Nat.le_of_ble_eq_true rfl, fun id => NestedMap.find_empty id.1 id.2,
    fun receivedMs h => hinsane (h.sane.1 first ?_), fun times hempty => ?_⟩
  · exact List.mem_cons_self
  · have hkept := attempts_keep (c := .reference) (s := s) hinsane hfirst times
    rw [hempty] at hkept
    exact List.not_mem_nil hkept

end DeviceSimulator

end Fieldbus.Cloud
