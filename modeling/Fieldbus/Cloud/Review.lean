import Mathlib.Data.Finset.Card
import Mathlib.Data.List.Nodup
import Fieldbus.Cloud.Calls

/-!
# What the checks of a batch decide

`review_of_valid` is the specification of the checks on one envelope and `review_batch` that of the
loop over a batch: it succeeds exactly when every envelope is valid and readings that share an
identity are equal, and what it leaves to be stored are the batch's new identities, each once.
-/

namespace Fieldbus.Cloud

/-! ## Equality of readings -/

namespace F64

variable {x y z : F64}

theorem beq_iff : (x == y) = true ↔
    x.isNan = false ∧ y.isNan = false ∧ (x.bits = y.bits ∨ x.isZero = true ∧ y.isZero = true) := by
  simp [BEq.beq, and_assoc]

theorem beq_symm (h : (x == y) = true) : (y == x) = true := by
  rw [beq_iff] at h ⊢
  obtain ⟨hx, hy, hbits⟩ := h
  exact ⟨hy, hx, hbits.imp Eq.symm And.symm⟩

theorem beq_trans (h : (x == y) = true) (h' : (y == z) = true) : (x == z) = true := by
  rw [beq_iff] at h h' ⊢
  obtain ⟨hx, hy, hxy⟩ := h
  obtain ⟨-, hz, hyz⟩ := h'
  refine ⟨hx, hz, ?_⟩
  rcases hxy with hxy | ⟨hzx, hzy⟩
  · obtain ⟨bits⟩ := x
    obtain rfl := hxy
    exact hyz
  · rcases hyz with hyz | ⟨-, hzz⟩
    · obtain ⟨bits⟩ := z
      obtain rfl := hyz
      exact .inr ⟨hzx, hzy⟩
    · exact .inr ⟨hzx, hzz⟩

theorem beq_of_finite (h : x.isFinite = true) : (x == x) = true := by
  have hexponent : (x.exponent == 0x7FF) = false := by simpa [isFinite] using h
  rw [beq_iff]
  simp [isNan, hexponent]

end F64

/-- Device, boot counter and sequence number. -/
def Reading.identity (r : Reading) : String × SessionKey := (r.deviceId, r.key)

namespace Reading

variable {a b r : Reading}

theorem beq_iff : (a == b) = true ↔
    a.deviceId = b.deviceId ∧ a.firmwareVersion = b.firmwareVersion ∧ a.sequence = b.sequence ∧
      a.deviceTimestampMs = b.deviceTimestampMs ∧ a.bootCounter = b.bootCounter ∧
      (a.value == b.value) = true ∧ a.quality = b.quality := by
  show (a.deviceId == b.deviceId && a.firmwareVersion == b.firmwareVersion &&
    a.sequence == b.sequence && a.deviceTimestampMs == b.deviceTimestampMs &&
    a.bootCounter == b.bootCounter && a.value == b.value && a.quality == b.quality) = true ↔ _
  simp [and_assoc]

/-- `==` on readings is symmetric. -/
theorem beq_symm (h : (a == b) = true) : (b == a) = true := by
  rw [beq_iff] at h ⊢
  obtain ⟨h1, h2, h3, h4, h5, h6, h7⟩ := h
  exact ⟨h1.symm, h2.symm, h3.symm, h4.symm, h5.symm, F64.beq_symm h6, h7.symm⟩

/-- `==` on readings is transitive. -/
theorem beq_trans (h : (a == b) = true) (h' : (b == r) = true) : (a == r) = true := by
  rw [beq_iff] at h h' ⊢
  obtain ⟨h1, h2, h3, h4, h5, h6, h7⟩ := h
  obtain ⟨g1, g2, g3, g4, g5, g6, g7⟩ := h'
  exact ⟨h1.trans g1, h2.trans g2, h3.trans g3, h4.trans g4, h5.trans g5, F64.beq_trans h6 g6,
    h7.trans g7⟩

/-- A finite reading equals itself. -/
theorem beq_of_finite (h : r.value.isFinite = true) : (r == r) = true := by
  rw [beq_iff]
  exact ⟨rfl, rfl, rfl, rfl, rfl, F64.beq_of_finite h, rfl⟩

/-- Equal readings have the same identity. -/
theorem identity_of_beq (h : (a == b) = true) : a.identity = b.identity := by
  obtain ⟨hid, -, hsequence, -, hboot, -, -⟩ := beq_iff.mp h
  simp [identity, key, hid, hsequence, hboot]

end Reading

namespace Store

variable (c : Crates) (s : Store)

/-- An envelope that passes the checks that look at it alone and at its device's record. -/
structure Valid (e : Envelope) : Prop where
  version : e.protocolVersion = Cloud.protocolVersion
  signed : ∃ d, s.devices[e.reading.deviceId]? = some d ∧
    sign c d.secretHex e.reading = .ok e.signature
  finite : e.reading.value.isFinite = true
  quality : e.reading.quality ≠ ""

/-- The stored or pending reading with the identity of the given one. -/
def known (unseen : List Envelope) (r : Reading) : Option Envelope :=
  (s.stored r).or (unseen.find? fun prior => decide (prior.reading.identity = r.identity))

variable {c s} {unseen batch result : List Envelope} {e p : Envelope}

/-- The checks on a valid envelope: a known identity must carry an equal reading, a new one is left
to be stored. -/
theorem review_of_valid (h : s.Valid c e) :
    s.review c unseen e = match s.known unseen e.reading with
      | some prior => if prior.reading != e.reading then .error .conflict else .ok unseen
      | none => .ok (unseen ++ [e]) := by
  obtain ⟨hversion, ⟨d, hd, hsign⟩, hfinite, hquality⟩ := h
  have hpending : (fun prior : Envelope =>
      prior.reading.deviceId == e.reading.deviceId && prior.reading.key == e.reading.key) =
      fun prior => decide (prior.reading.identity = e.reading.identity) := by
    funext prior
    simp [Reading.identity, beq_eq_decide]
  have hsound : (!e.reading.value.isFinite || e.reading.quality.isEmpty) = false := by
    simp [hfinite, hquality]
  simp only [review, hd, hsign, hpending, hsound]
  rw [if_neg (not_not.mpr hversion), if_neg (not_not.mpr rfl), if_neg Bool.false_ne_true]
  rfl

/-- The checks refuse an envelope that is not valid. -/
theorem review_of_not_valid (unseen : List Envelope) (h : ¬ s.Valid c e) :
    ∃ error, s.review c unseen e = .error error := by
  unfold review
  split
  · exact ⟨_, rfl⟩
  · rename_i hversion
    split
    · exact ⟨_, rfl⟩
    · rename_i d hd
      split
      · exact ⟨_, rfl⟩
      · rename_i signature hsign
        split
        · exact ⟨_, rfl⟩
        · rename_i hsignature
          split
          · exact ⟨_, rfl⟩
          · rename_i hvalue
            have hsound : e.reading.value.isFinite = true ∧ e.reading.quality ≠ "" := by
              simpa using hvalue
            refine absurd ⟨not_not.mp hversion, ⟨d, hd, ?_⟩, hsound.1, hsound.2⟩ h
            rw [hsign, not_not.mp hsignature]

/-- A review adds the envelope if its identity is not known. -/
theorem review_adds (h : s.review c unseen e = .ok result) :
    s.known unseen e.reading ≠ none ∧ result = unseen ∨
      s.known unseen e.reading = none ∧ result = unseen ++ [e] := by
  by_cases hvalid : s.Valid c e
  · rw [review_of_valid hvalid] at h
    cases hknown : s.known unseen e.reading with
    | none =>
        rw [hknown] at h
        exact .inr ⟨rfl, (Except.ok.inj h).symm⟩
    | some p =>
        rw [hknown] at h
        dsimp only at h
        split at h
        · cases h
        · exact .inl ⟨by simp, (Except.ok.inj h).symm⟩
  · obtain ⟨error, herror⟩ := review_of_not_valid unseen hvalid
    rw [herror] at h
    cases h

/-- Readings that share an identity, in the batch or with the store, are equal. -/
structure Consistent (s : Store) (batch : List Envelope) : Prop where
  stored : ∀ e ∈ batch, ∀ p, s.stored e.reading = some p → (p.reading == e.reading) = true
  batch : ∀ e ∈ batch, ∀ e' ∈ batch, e.reading.identity = e'.reading.identity →
    (e.reading == e'.reading) = true

/-- What the checks of a batch establish: the envelopes are valid, those added to `unseen` have new
identities, each once, and every envelope is equal to the known one with its identity. -/
structure Reviewed (c : Crates) (s : Store) (unseen batch added : List Envelope) : Prop where
  valid : ∀ e ∈ batch, s.Valid c e
  mem : ∀ e ∈ added, e ∈ batch
  fresh : ∀ e ∈ added, s.known unseen e.reading = none
  nodup : (added.map fun e => e.reading.identity).Nodup
  covered : ∀ e ∈ batch, ∃ p, s.known (unseen ++ added) e.reading = some p ∧
    (p.reading == e.reading) = true

theorem known_append (unseen added : List Envelope) (r : Reading) :
    s.known (unseen ++ added) r =
      (s.known unseen r).or
        (added.find? fun prior => decide (prior.reading.identity = r.identity)) := by
  rw [known, known, List.find?_append, Option.or_assoc]

/-- A successful review of a batch establishes `Reviewed`. -/
theorem review_batch_ok (h : batch.foldlM (s.review c) unseen = .ok result) :
    ∃ added, result = unseen ++ added ∧ Reviewed c s unseen batch added := by
  induction batch generalizing unseen with
  | nil =>
      obtain rfl := Except.ok.inj h
      exact ⟨[], by simp, by simp, by simp, by simp, by simp, by simp⟩
  | cons e rest ih =>
      rw [List.foldlM_cons] at h
      by_cases hvalid : s.Valid c e
      · rw [review_of_valid hvalid] at h
        cases hknown : s.known unseen e.reading with
        | some p =>
            rw [hknown] at h
            dsimp only at h
            split at h
            · simp [bind, Except.bind] at h
            -- a duplicate: `e` adds nothing and is covered by the known reading
            · rename_i heq
              have heq : (p.reading == e.reading) = true := by simpa [bne] using heq
              obtain ⟨added, hresult, hrest⟩ := ih h
              refine ⟨added, hresult, ?_, ?_, hrest.fresh, hrest.nodup, ?_⟩
              · exact List.forall_mem_cons.mpr ⟨hvalid, hrest.valid⟩
              · exact fun e' he' => List.mem_cons_of_mem e (hrest.mem e' he')
              · refine List.forall_mem_cons.mpr ⟨⟨p, ?_, heq⟩, hrest.covered⟩
                rw [known_append, hknown, Option.some_or]
        | none =>
            rw [hknown] at h
            obtain ⟨added, hresult, hrest⟩ := ih h
            -- `e` is pending for the rest, so what the rest adds differs from it too
            have hsplit : ∀ e' ∈ added, s.known unseen e'.reading = none ∧
                e.reading.identity ≠ e'.reading.identity := by
              intro e' he'
              have hnone := hrest.fresh e' he'
              rw [known_append, Option.or_eq_none_iff] at hnone
              exact ⟨hnone.1, by simpa using hnone.2⟩
            refine ⟨e :: added, by simpa using hresult, ?_, ?_, ?_, ?_, ?_⟩
            · exact List.forall_mem_cons.mpr ⟨hvalid, hrest.valid⟩
            · exact List.forall_mem_cons.mpr
                ⟨List.mem_cons_self, fun e' he' => List.mem_cons_of_mem e (hrest.mem e' he')⟩
            · exact List.forall_mem_cons.mpr ⟨hknown, fun e' he' => (hsplit e' he').1⟩
            · rw [List.map_cons, List.nodup_cons]
              refine ⟨fun hmem => ?_, hrest.nodup⟩
              obtain ⟨e', he', heq⟩ := List.mem_map.mp hmem
              exact (hsplit e' he').2 heq.symm
            · refine List.forall_mem_cons.mpr ⟨⟨e, ?_, Reading.beq_of_finite hvalid.finite⟩, ?_⟩
              · rw [known_append, hknown, Option.none_or, List.find?_cons_of_pos (by simp)]
              · simpa using hrest.covered
      · obtain ⟨error, herror⟩ := review_of_not_valid unseen hvalid
        rw [herror] at h
        simp [bind, Except.bind] at h

/-- A batch of valid envelopes that agree with each other and with what is known is not refused. -/
theorem review_batch_succeeds (hvalid : ∀ e ∈ batch, s.Valid c e)
    (hknown : ∀ e ∈ batch, ∀ p, s.known unseen e.reading = some p →
      (p.reading == e.reading) = true)
    (hbatch : ∀ e ∈ batch, ∀ e' ∈ batch, e.reading.identity = e'.reading.identity →
      (e.reading == e'.reading) = true) :
    ∃ result, batch.foldlM (s.review c) unseen = .ok result := by
  induction batch generalizing unseen with
  | nil => exact ⟨unseen, rfl⟩
  | cons e rest ih =>
      obtain ⟨he, hrest⟩ := List.forall_mem_cons.mp hvalid
      rw [List.foldlM_cons, review_of_valid he]
      have hrestBatch : ∀ e₁ ∈ rest, ∀ e₂ ∈ rest,
          e₁.reading.identity = e₂.reading.identity → (e₁.reading == e₂.reading) = true :=
        fun e₁ h₁ e₂ h₂ =>
          hbatch e₁ (List.mem_cons_of_mem e h₁) e₂ (List.mem_cons_of_mem e h₂)
      cases hprior : s.known unseen e.reading with
      | some p =>
          have heq := hknown e List.mem_cons_self p hprior
          obtain ⟨result, hresult⟩ :=
            ih hrest (fun e' h' => hknown e' (List.mem_cons_of_mem e h')) hrestBatch
          exact ⟨result, by simpa [bne, heq, bind, Except.bind] using hresult⟩
      | none =>
          -- what the rest may now meet is the store, an earlier reading, or `e` itself
          refine ih hrest (fun e' h' p hp => ?_) hrestBatch
          rw [known_append, Option.or_eq_some_iff] at hp
          rcases hp with hp | ⟨-, hp⟩
          · exact hknown e' (List.mem_cons_of_mem e h') p hp
          · by_cases hid : e.reading.identity = e'.reading.identity
            · obtain rfl : e = p := by simpa [hid] using hp
              exact hbatch e List.mem_cons_self e' (List.mem_cons_of_mem e h') hid
            · simp [hid] at hp

@[simp] theorem known_nil (r : Reading) : s.known [] r = s.stored r := by
  simp [known]

/-- The checks of a batch succeed exactly when its envelopes are valid and consistent. -/
theorem review_batch_iff :
    (∃ result, batch.foldlM (s.review c) [] = .ok result) ↔
      (∀ e ∈ batch, s.Valid c e) ∧ s.Consistent batch := by
  constructor
  · rintro ⟨result, h⟩
    obtain ⟨added, -, hreviewed⟩ := review_batch_ok h
    refine ⟨hreviewed.valid, ⟨fun e he p hp => ?_, fun e he e' he' hid => ?_⟩⟩
    · obtain ⟨q, hq, heq⟩ := hreviewed.covered e he
      rw [known_append, known_nil, hp, Option.some_or] at hq
      obtain rfl := Option.some.inj hq
      exact heq
    · obtain ⟨p, hp, heq⟩ := hreviewed.covered e he
      obtain ⟨p', hp', heq'⟩ := hreviewed.covered e' he'
      have hsame : s.known ([] ++ added) e.reading = s.known ([] ++ added) e'.reading := by
        simp only [known, stored, Reading.identity, Prod.mk.injEq] at hid ⊢
        rw [hid.1, hid.2]
      obtain rfl : p = p' := Option.some.inj (hp.symm.trans (hsame.trans hp'))
      exact Reading.beq_trans (Reading.beq_symm heq) heq'
  · rintro ⟨hvalid, hconsistent⟩
    refine review_batch_succeeds hvalid (fun e he p hp => ?_) hconsistent.batch
    rw [known_nil] at hp
    exact hconsistent.stored e he p hp

/-- The identities of a batch that are not stored yet. -/
def newIdentities (s : Store) (batch : List Envelope) : Finset (String × SessionKey) :=
  (batch.map fun e => e.reading.identity).toFinset.filter fun id =>
    (s.readings.find id.1 id.2).isNone

/-- A batch has at most one new identity for each envelope. -/
theorem newIdentities_card_le (s : Store) (batch : List Envelope) :
    (s.newIdentities batch).card ≤ batch.length := by
  rw [newIdentities, ← List.length_map (fun e : Envelope => e.reading.identity)]
  exact (Finset.card_filter_le _ _).trans (List.toFinset_card_le _)

/-- What a reviewed batch leaves to be stored are its new identities, each once. -/
theorem Reviewed.length_eq {added : List Envelope} (h : Reviewed c s [] batch added) :
    added.length = (s.newIdentities batch).card := by
  have hids : (added.map fun e => e.reading.identity).toFinset = s.newIdentities batch := by
    ext id
    simp only [newIdentities, List.mem_toFinset, List.mem_map, Finset.mem_filter]
    constructor
    · rintro ⟨e, he, rfl⟩
      have hfresh := h.fresh e he
      rw [known_nil] at hfresh
      exact ⟨⟨e, h.mem e he, rfl⟩, Option.isNone_iff_eq_none.mpr hfresh⟩
    · rintro ⟨⟨e, he, rfl⟩, hnone⟩
      obtain ⟨p, hp, -⟩ := h.covered e he
      have hstored : s.stored e.reading = none := Option.isNone_iff_eq_none.mp hnone
      rw [known_append, known_nil, hstored, Option.none_or] at hp
      exact ⟨p, List.mem_of_find?_eq_some hp, by simpa using List.find?_some hp⟩
  rw [← hids, List.toFinset_card_of_nodup h.nodup, List.length_map]

/-- Readings that pass the review are of registered devices. -/
theorem Reviewed.mem_devices {s : Store} {batch added : List Envelope}
    (h : s.Reviewed c [] batch added) :
    ∀ e ∈ added, e.reading.deviceId ∈ s.devices := by
  intro e he
  obtain ⟨d, hd, -⟩ := (h.valid e (h.mem e he)).signed
  exact Std.ExtTreeMap.mem_iff_isSome_getElem?.mpr (by simp [hd])

/-! ## What a call plans -/

/-- The events a call plans, with what its checks have established. -/
inductive Planned (c : Crates) (s : Store) : Call → List Event → Prop where
  | register {deviceId secretHex firmwareVersion key} :
      s.devices.contains deviceId = false → unhex secretHex = .ok key →
      Planned c s (.register deviceId secretHex firmwareVersion)
        [.registered (.initial deviceId secretHex firmwareVersion)]
  | rotateCredential {id secretHex key d} :
      s.devices[id]? = some d → unhex secretHex = .ok key →
      Planned c s (.rotateCredential id secretHex) [.credentialRotated (d.rotated secretHex)]
  | ingest {batch receivedMs added} :
      batch.isEmpty = false → batch.length ≤ maxBatch → Reviewed c s [] batch added →
      s.readingCount + added.length ≤ maxStoredReadings →
      Planned c s (.ingest batch receivedMs) (added.map fun e => .readingAccepted e receivedMs)
  | publishFirmware {m} :
      m.version ≠ "" → m.sha256.utf8ByteSize = 64 →
      Planned c s (.publishFirmware m) [.firmwarePublished m]
  | publishConfig {m} :
      m.samplePeriodMs ≠ 0 → m.samplePeriodMs ≤ m.staleAfterMs →
      Planned c s (.publishConfig m) [.configPublished m]
  | reopen : Planned c s .reopen []

/-- A plan that passes its checks is one of these. -/
theorem plan_ok {call : Call} {events : List Event} (h : s.plan c call = .ok events) :
    s.Planned c call events := by
  cases call with
  | register deviceId secretHex firmwareVersion =>
      simp only [plan] at h
      split at h
      · simp at h
      · rename_i hcontains
        cases hhex : unhex secretHex with
        | error e => simp [hhex, Except.map] at h
        | ok key =>
            obtain rfl : _ = events := by simpa [hhex, Except.map] using h
            exact .register (Bool.not_eq_true _ ▸ hcontains) hhex
  | rotateCredential id secretHex =>
      simp only [plan] at h
      split at h
      · simp at h
      · rename_i d hd
        cases hhex : unhex secretHex with
        | error e => simp [hhex, Except.map] at h
        | ok key =>
            obtain rfl : _ = events := by simpa [hhex, Except.map] using h
            exact .rotateCredential hd hhex
  | ingest batch receivedMs =>
      simp only [plan] at h
      split at h
      · simp at h
      · rename_i hsize
        rw [not_or, Bool.not_eq_true, not_lt] at hsize
        cases hreview : batch.foldlM (s.review c) [] with
        | error e => simp [hreview] at h
        | ok unseen =>
            obtain ⟨added, hadded, hreviewed⟩ := review_batch_ok hreview
            obtain rfl : added = unseen := hadded.symm
            simp only [hreview] at h
            split at h
            · simp at h
            · rename_i hcapacity
              obtain rfl := Except.ok.inj h
              exact .ingest hsize.1 hsize.2 hreviewed (not_lt.mp hcapacity)
  | publishFirmware m =>
      simp only [plan] at h
      split at h
      · simp at h
      · rename_i hchecks
        obtain rfl := Except.ok.inj h
        rw [not_or, not_not] at hchecks
        exact .publishFirmware (by simpa using hchecks.1) hchecks.2
  | publishConfig m =>
      simp only [plan] at h
      split at h
      · simp at h
      · rename_i hchecks
        obtain rfl := Except.ok.inj h
        rw [not_or] at hchecks
        exact .publishConfig hchecks.1 (UInt64.not_lt.mp hchecks.2)
  | reopen =>
      obtain rfl := Except.ok.inj h
      exact .reopen

end Store

end Fieldbus.Cloud
