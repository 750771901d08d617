import Fieldbus.Cloud.Credentials
import Fieldbus.Cloud.Signature

/-!
# What a rotation revokes

`rotation_revokes` says that a rotation revokes exactly the secrets whose key block differs from
that of the new one; secrets that differ in trailing zeros, say, have the same one.
-/

namespace Fieldbus.Cloud

variable {c : Crates}

/-- The digest does not collide on the outer messages of two signatures of a reading. -/
def NoCollision (c : Crates) (old new : String) (reading : Reading) : Prop :=
  ∀ key key' body, keyBlock c old = .ok key → keyBlock c new = .ok key' →
    c.toVec reading = .ok body →
    c.sha256 (outerMessage c key body) = c.sha256 (outerMessage c key' body) →
    outerMessage c key body = outerMessage c key' body

/-- Without a collision, two secrets sign alike exactly when their key blocks agree. -/
theorem signature_eq_iff {old new signature : String} {reading : Reading}
    (hcollision : NoCollision c old new reading)
    (hold : sign c old reading = .ok signature) :
    sign c new reading = .ok signature ↔ keyBlock c new = keyBlock c old := by
  obtain ⟨key, body, hkey, hbody, hsignature⟩ := sign_ok_iff.mp hold
  constructor
  · intro hnew
    obtain ⟨key', body', hkey', hbody', hsignature'⟩ := sign_ok_iff.mp hnew
    obtain rfl : body = body' := Except.ok.inj (hbody.symm.trans hbody')
    have hmessage := hcollision key key' body hkey hkey' hbody
      (hex_injective (hsignature.trans hsignature'.symm))
    rw [hkey, hkey',
      outerMessage_injective (keyBlock_length hkey) (keyBlock_length hkey') hmessage]
  · intro hblock
    exact sign_ok_iff.mpr ⟨key, body, hblock.trans hkey, hbody, hsignature⟩

namespace Server

variable {s s' : Server} {e : Envelope}

/-- A successful rotation puts the new secret in place, under the name of the device. -/
theorem rotateCredential_ok (hnamed : s.store.Named) {id secretHex : String}
    {record : DeviceRecord} {write : Write}
    (h : s.rotateCredential c id secretHex write = (s', .ok record)) :
    s'.store.devices[id]? = some record ∧ record.secretHex = secretHex ∧
      ∃ key, unhex secretHex = .ok key := by
  unfold rotateCredential at h
  split at h
  · simp at h
  · rename_i d hd
    split at h
    · simp at h
    · rename_i key hhex
      rcases append_cases (c := c) s (.credentialRotated (d.rotated secretHex)) write with
        ⟨text, -, -, happend⟩ | ⟨error, happend⟩ | ⟨text, error, -, happend⟩
      all_goals
        rw [DeviceRecord.rotated] at happend
        simp only [happend] at h
      · obtain ⟨rfl, hrecord⟩ := Prod.mk.inj h
        obtain rfl := Except.ok.inj hrecord
        refine ⟨?_, rfl, key, hhex⟩
        simp [Store.apply, hnamed id d hd]
      · simp at h
      · simp at h

/-- A rotation whose write succeeds. -/
theorem rotateCredential_complete {id secretHex text : String} {d : DeviceRecord}
    {key : List UInt8} (hd : s.store.devices[id]? = some d) (hhex : unhex secretHex = .ok key)
    (htext : c.toString (.credentialRotated (d.rotated secretHex)) = .ok text) :
    s.rotateCredential c id secretHex .complete =
      (⟨s.store.apply (.credentialRotated (d.rotated secretHex)), s.log ++ lineBytes text⟩,
        .ok (d.rotated secretHex)) := by
  rw [DeviceRecord.rotated] at htext
  simp only [rotateCredential, hd, hhex, append, htext, DeviceRecord.rotated]

/-- An authentic envelope of a known protocol is not refused as unauthorized by the checks. -/
theorem review_ne_unauthorized {store : Store} (hversion : e.protocolVersion = protocolVersion)
    (h : store.Authentic c e) (unseen : List Envelope) :
    store.review c unseen e ≠ .error .unauthorized := by
  obtain ⟨d, hd, hsign⟩ := h
  simp only [Store.review, hversion, hd, hsign, ne_eq, not_true_eq_false, if_false]
  split
  · simp
  · split
    · split <;> simp
    · simp

/-- The storage step of a call is never refused as unauthorized. -/
theorem commit_ne_unauthorized (w : Nat → Write) (s : Server) (events : List Event)
    (index : Nat) : (commit c w s events index).2 ≠ .error .unauthorized := by
  induction events generalizing s index with
  | nil => simp [commit]
  | cons event rest ih =>
      rw [commit]
      cases w index with
      | openFailed message => simp [append]
      | complete | cut =>
          simp only [append]
          cases c.toString event with
          | error e => simp
          | ok text => first | exact ih _ _ | simp

/-- An authentic envelope of a known protocol, sent by itself, is not refused as unauthorized. -/
theorem ingest_ne_unauthorized (hversion : e.protocolVersion = protocolVersion)
    (h : s.store.Authentic c e) (receivedMs : Int64) (w : Nat → Write) :
    (s.ingest c [e] receivedMs w).2 ≠ .error .unauthorized := by
  have hreview := review_ne_unauthorized hversion h []
  rw [ingest, if_neg (by simp [maxBatch])]
  simp only [List.foldlM_cons, List.foldlM_nil]
  cases hresult : s.store.review c [] e with
  | error error =>
      rw [hresult] at hreview
      simpa [bind, Except.bind] using hreview
  | ok unseen =>
      simp only [bind, Except.bind, pure, Except.pure]
      split
      · simp
      · rw [accept_eq]
        have hcommit := commit_ne_unauthorized (c := c) w s
          (unseen.map fun e => .readingAccepted e receivedMs) 0
        revert hcommit
        rcases (commit c w s (unseen.map fun e => Event.readingAccepted e receivedMs) 0).2 with
          error | u <;> simp [Except.map]

/-- An envelope with another signature is refused as unauthorized, and nothing changes. -/
theorem ingest_unauthorized {d : DeviceRecord} {signature : String}
    (hversion : e.protocolVersion = protocolVersion)
    (hd : s.store.devices[e.reading.deviceId]? = some d)
    (hsign : sign c d.secretHex e.reading = .ok signature) (hne : signature ≠ e.signature)
    (receivedMs : Int64) (w : Nat → Write) :
    s.ingest c [e] receivedMs w = (s, .error .unauthorized) := by
  have hreview : s.store.review c [] e = .error .unauthorized := by
    simp [Store.review, hversion, hd, hsign, hne]
  rw [ingest, if_neg (by simp [maxBatch]), List.foldlM_cons, hreview]
  rfl

/-- Rotation revokes the old credential, and every other with another key block. On every store that
events amount to, after a device was rotated to a new secret, an envelope of its signed with a
secret whose HMAC key block differs from that of the new one is refused as unauthorized and leaves
the store unchanged, and so is every batch that contains it; one signed with a secret that has the
same key block is not. The digest must not collide on the outer messages of the two signatures. -/
theorem rotation_revokes {events : List Event} (hstore : s.store = Store.replay events)
    {id old new : String} {record : DeviceRecord} {write : Write}
    (hrotate : s.rotateCredential c id new write = (s', .ok record))
    (hid : e.reading.deviceId = id) (hsigned : signed c old e.reading = .ok e)
    (hcollision : NoCollision c old new e.reading) (receivedMs : Int64) (w : Nat → Write) :
    (keyBlock c old ≠ keyBlock c new →
      s'.ingest c [e] receivedMs w = (s', .error .unauthorized) ∧
        ∀ batch, e ∈ batch → ∃ error, s'.ingest c batch receivedMs w = (s', .error error)) ∧
    (keyBlock c old = keyBlock c new →
      (s'.ingest c [e] receivedMs w).2 ≠ .error .unauthorized) := by
  subst hid
  obtain ⟨hrecord, hsecret, key, hkey⟩ :=
    rotateCredential_ok (hstore ▸ Store.named_replay events) hrotate
  obtain ⟨hversion, -, hold⟩ := signed_ok_iff.mp hsigned
  have hiff := signature_eq_iff hcollision hold
  -- the new secret signs the reading too: it decodes, and the body is the same
  obtain ⟨signature, hnew⟩ : ∃ signature, sign c new e.reading = .ok signature := by
    obtain ⟨-, body, -, hbody, -⟩ := sign_ok_iff.mp hold
    exact ⟨_, sign_ok_iff.mpr ⟨_, body, by rw [keyBlock, hkey]; rfl, hbody, rfl⟩⟩
  refine ⟨fun hblock => ⟨?_, fun batch hbatch => ?_⟩, fun hblock => ?_⟩
  · refine ingest_unauthorized hversion hrecord (hsecret ▸ hnew) (fun heq => hblock ?_) _ _
    exact (hiff.mp (heq ▸ hnew)).symm
  · refine ingest_of_not_acceptable (fun hacceptable => hblock ?_) receivedMs w
    obtain ⟨d, hd, hsign⟩ := (hacceptable.valid e hbatch).signed
    obtain rfl := Option.some.inj (hd.symm.trans hrecord)
    exact (hiff.mp (hsecret ▸ hsign)).symm
  · exact ingest_ne_unauthorized hversion ⟨record, hrecord, hsecret ▸ hiff.mpr hblock.symm⟩ _ _

/-- A store with one device and a rotation of its secret. -/
theorem rotate_registered {new : String} {key : List UInt8} (hhex : unhex new = .ok key) :
    ∃ s s' record, fresh.run .reference [.register "d" "00" "1"] = some s ∧
      s.rotateCredential .reference "d" new .complete = (s', .ok record) ∧
      s.store = Store.replay [.registered (.initial "d" "00" "1")] ∧
      s'.store = s.store.apply (.credentialRotated record) ∧
      record = (DeviceRecord.initial "d" "00" "1").rotated new :=
  ⟨_, _, _, run_register rfl rfl,
    rotateCredential_complete (d := .initial "d" "00" "1")
      (by simp [Store.apply, DeviceRecord.initial]) hhex rfl, rfl, rfl, rfl⟩

/-- A reading of that device. -/
def firstReading : Reading := ⟨"d", "1", 0, 10, 1, ⟨0x3FF0000000000000⟩, "ok"⟩

theorem signatures_differ : (sign .reference "00" firstReading).toOption ≠
    (sign .reference "01" firstReading).toOption := by
  decide +kernel

/-- The rule at the secrets `00` and `01`. -/
theorem rotation_revokes_zero_one :
    ∃ s s' record e, fresh.run .reference [.register "d" "00" "1"] = some s ∧
      s.rotateCredential .reference "d" "01" .complete = (s', .ok record) ∧
      signed .reference "00" firstReading = .ok e ∧
      s'.ingest .reference [e] 20 (fun _ => .complete) = (s', .error .unauthorized) := by
  obtain ⟨signature, hsign⟩ : ∃ signature, sign .reference "00" firstReading = .ok signature :=
    ⟨_, rfl⟩
  have hsigned : signed .reference "00" firstReading =
      .ok ⟨protocolVersion, firstReading, signature⟩ := signed_ok_iff.mpr ⟨rfl, rfl, hsign⟩
  have hblock : keyBlock .reference "00" ≠ keyBlock .reference "01" :=
    fun heq => signatures_differ (by rw [sign_eq, sign_eq, heq])
  have hcollision : NoCollision .reference "00" "01" firstReading := by
    intro key key' body hkey hkey' hbody hdigest
    refine absurd ?_ signatures_differ
    rw [sign_ok_iff.mpr ⟨key, body, hkey, hbody, rfl⟩,
      sign_ok_iff.mpr ⟨key', body, hkey', hbody, rfl⟩, hdigest]
  obtain ⟨s, s', record, hrun, hrotate, hstore, -⟩ := rotate_registered
    (show unhex "01" = .ok [1] from rfl)
  obtain ⟨hrevoked, -⟩ :=
    rotation_revokes (e := ⟨protocolVersion, firstReading, signature⟩) hstore hrotate rfl hsigned
      hcollision 20 fun _ => .complete
  exact ⟨s, s', record, _, hrun, hrotate, hsigned, (hrevoked hblock).1⟩

/-- The secrets `00` and `0000` decode to different bytes and have the same key block: an envelope
signed with the first is still stored after a rotation to the second. -/
theorem zero_padded_secret_not_revoked :
    unhex "00" = .ok [0] ∧ unhex "0000" = .ok [0, 0] ∧
    NoCollision .reference "00" "0000" firstReading ∧
    ∃ s s' record e, fresh.run .reference [.register "d" "00" "1"] = some s ∧
      s.rotateCredential .reference "d" "0000" .complete = (s', .ok record) ∧
      signed .reference "00" firstReading = .ok e ∧
      (s'.ingest .reference [e] 20 fun _ => .complete).2 = .ok 1 := by
  have hblock : keyBlock .reference "0000" = keyBlock .reference "00" := rfl
  refine ⟨rfl, rfl, fun key key' body hkey hkey' _ _ => ?_, ?_⟩
  · rw [hblock, hkey] at hkey'
    rw [Except.ok.inj hkey']
  obtain ⟨signature, hsign⟩ : ∃ signature, sign .reference "00" firstReading = .ok signature :=
    ⟨_, rfl⟩
  have hsigned : signed .reference "00" firstReading =
      .ok ⟨protocolVersion, firstReading, signature⟩ := signed_ok_iff.mpr ⟨rfl, rfl, hsign⟩
  have hnew : sign .reference "0000" firstReading = .ok signature := by
    rw [sign_eq, hblock, ← sign_eq, hsign]
  obtain ⟨s, s', record, hrun, hrotate, hstore, hstore', hrecord⟩ :=
    rotate_registered (show unhex "0000" = .ok [0, 0] from rfl)
  refine ⟨s, s', record, _, hrun, hrotate, hsigned, ?_⟩
  have hempty : s'.store.readings = ∅ := by rw [hstore', hstore]; rfl
  have hvalid : s'.store.Valid .reference ⟨protocolVersion, firstReading, signature⟩ := by
    refine ⟨rfl, ⟨record, ?_, ?_⟩, (by decide : F64.isFinite ⟨0x3FF0000000000000⟩ = true), ?_⟩
    · simp [hstore', hrecord, Store.apply, DeviceRecord.rotated, DeviceRecord.initial,
        firstReading]
    · rw [hrecord]
      exact hnew
    · simp [firstReading]
  obtain ⟨hacceptable, hcard⟩ := Store.acceptable_singleton hvalid
    (by rw [Store.lookup, hempty, NestedMap.find_empty])
    (by rw [Store.readingCount, hempty]; exact Nat.le_of_ble_eq_true rfl)
  obtain ⟨added, log, hreviewed, hingest⟩ := ingest_of_acceptable reference_total hacceptable 20
  rw [hingest, hreviewed.length_eq, hcard]

end Server

end Fieldbus.Cloud
