import Fieldbus.Cloud.Store

/-!
# Device health

After `Store::health` and `Store::dashboard` in `cloud/src/lib.rs`.
-/

namespace Fieldbus.Cloud

/-- What is reported about a device. -/
structure Health where
  deviceId : String
  online : Bool
  stale : Bool
  lastSeenMs : Option Int64
  lastSequence : Option UInt64
  bootCounter : Option UInt64
  deriving DecidableEq, Repr

/-- `i64::saturating_sub`. -/
def saturatingSub (a b : Int64) : Int64 :=
  Int64.ofInt (max (-2 ^ 63) (min (2 ^ 63 - 1) (a.toInt - b.toInt)))

namespace Store

/-- The health of a device at a time. -/
def health (s : Store) (id : String) (now staleAfterMs : Int64) : Except Error Health :=
  match s.devices[id]? with
  | none => .error .notFound
  | some d =>
      let online := d.lastSeenMs.any fun t =>
        decide (t ≤ now) && decide (saturatingSub now t ≤ staleAfterMs)
      .ok ⟨id, online, !online, d.lastSeenMs, d.lastSequence, d.bootCounter⟩

/-- The health of all devices. -/
def dashboard (s : Store) (now staleAfterMs : Int64) : List Health :=
  s.devices.keys.filterMap fun id => (s.health id now staleAfterMs).toOption

variable {s : Store} {now staleAfterMs : Int64}

theorem saturating_sub_toInt {a b : Int64} (h : b ≤ a) :
    (saturatingSub a b).toInt = min (2 ^ 63 - 1) (a.toInt - b.toInt) := by
  rw [Int64.le_iff_toInt_le] at h
  rw [saturatingSub, Int64.toInt_ofInt_of_le] <;> omega

/-- A device is online when it was last seen at most `staleAfterMs` milliseconds ago, and not in the
future. -/
theorem health_online_iff {id : String} {h : Health} (hbound : staleAfterMs.toInt < 2 ^ 63 - 1)
    (hhealth : s.health id now staleAfterMs = .ok h) :
    h.online = true ↔ ∃ t, h.lastSeenMs = some t ∧
      0 ≤ now.toInt - t.toInt ∧ now.toInt - t.toInt ≤ staleAfterMs.toInt := by
  rw [health] at hhealth
  split at hhealth
  · cases hhealth
  · obtain rfl := Except.ok.inj hhealth
    simp only [Option.any_eq_true, Bool.and_eq_true, decide_eq_true_eq]
    refine exists_congr fun t => and_congr_right fun _ => ?_
    constructor
    · rintro ⟨hpast, hrecent⟩
      rw [Int64.le_iff_toInt_le, saturating_sub_toInt hpast] at hrecent
      rw [Int64.le_iff_toInt_le] at hpast
      omega
    · rintro ⟨hpast, hrecent⟩
      have hle : t ≤ now := Int64.le_iff_toInt_le.mpr (by omega)
      exact ⟨hle, by rw [Int64.le_iff_toInt_le, saturating_sub_toInt hle]; omega⟩

/-- The dashboard reports every registered device once, in the order of their names. -/
theorem dashboard_devices :
    (s.dashboard now staleAfterMs).map Health.deviceId = s.devices.keys := by
  have hreported : ∀ id ∈ s.devices.keys,
      (s.health id now staleAfterMs).toOption.map Health.deviceId = some id := by
    intro id hid
    obtain ⟨d, hd⟩ := Option.isSome_iff_exists.mp
      (Std.ExtTreeMap.mem_iff_isSome_getElem?.mp (Std.ExtTreeMap.mem_keys.mp hid))
    rw [health, hd]
    rfl
  rw [dashboard, List.map_filterMap, List.filterMap_congr hreported, List.filterMap_some]

end Store

end Fieldbus.Cloud
