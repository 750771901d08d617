import Mathlib.Data.UInt

/-!
# The sensor-staleness watchdog

After `core/src/watchdog.rs`. Timestamps and the budget are `u64` microseconds and the deadline
`last_seen_us + timeout_us` is the wrapping sum of the release build; `check_unlatched` states the
test in exact integers for the states whose deadline stays in range.
-/

namespace Fieldbus

namespace Watchdog

/-- Why the node entered its safe state. -/
inductive SafeReason where
  /-- No sensor frame was accepted within `timeoutUs` of the last one. -/
  | sensorStale (lastSeenUs trippedAtUs timeoutUs : UInt64)
  deriving DecidableEq, Repr

/-- A latched safe state. -/
structure SafeState where
  reason : SafeReason
  deriving DecidableEq, Repr

/-- `u64::saturating_sub`. -/
def saturatingSub (a b : UInt64) : UInt64 :=
  if b ≤ a then a - b else 0

/-- `saturating_sub` is truncated subtraction of the integers. -/
theorem saturating_sub_toNat (a b : UInt64) : (saturatingSub a b).toNat = a.toNat - b.toNat := by
  unfold saturatingSub
  split
  · rename_i h
    exact UInt64.toNat_sub_of_le a b h
  · rename_i h
    have := UInt64.lt_iff_toNat_lt.mp (UInt64.not_le.mp h)
    simp only [UInt64.toNat_zero]
    omega

namespace SafeState

/-- From the last accepted sensor frame to the moment the safe state latched. -/
def timeSinceLastAcceptedUs (s : SafeState) : UInt64 :=
  match s.reason with
  | .sensorStale lastSeenUs trippedAtUs _ => saturatingSub trippedAtUs lastSeenUs

/-- How far past its own budget the trip landed. -/
def overshootPastBudgetUs (s : SafeState) : UInt64 :=
  match s.reason with
  | .sensorStale lastSeenUs trippedAtUs timeoutUs =>
      saturatingSub trippedAtUs (lastSeenUs + timeoutUs)

/-- The name of the reason. -/
def reasonName (s : SafeState) : String :=
  match s.reason with
  | .sensorStale .. => "sensor_stale"

end SafeState

end Watchdog

/-- Trips a latched `SafeState` when accepted sensor frames stop arriving. -/
structure Watchdog where
  timeoutUs : UInt64
  lastSeenUs : UInt64
  latched : Option Watchdog.SafeState
  deriving DecidableEq, Repr

namespace Watchdog

/-- A watchdog armed at `startUs` with the given staleness budget. -/
def new (timeoutUs startUs : UInt64) : Watchdog := ⟨timeoutUs, startUs, none⟩

/-- Record an accepted sensor frame; an earlier timestamp does not move the deadline back. -/
def feed (w : Watchdog) (nowUs : UInt64) : Watchdog :=
  if nowUs > w.lastSeenUs then { w with lastSeenUs := nowUs } else w

/-- Evaluate the staleness budget and return the latched state, if any. -/
def check (w : Watchdog) (nowUs : UInt64) : Watchdog × Option SafeState :=
  let w' :=
    -- strictly past: a check at the deadline itself does not trip
    if w.latched.isNone ∧ nowUs > w.lastSeenUs + w.timeoutUs then
      { w with latched := some ⟨.sensorStale w.lastSeenUs nowUs w.timeoutUs⟩ }
    else w
  (w', w'.latched)

/-- Clear the latch and re-arm at `nowUs`. -/
def reset (w : Watchdog) (nowUs : UInt64) : Watchdog :=
  { w with latched := none, lastSeenUs := nowUs }

variable (w : Watchdog) (nowUs : UInt64)

@[simp] theorem feed_timeout : (w.feed nowUs).timeoutUs = w.timeoutUs := by
  unfold feed
  split <;> rfl

@[simp] theorem feed_latched : (w.feed nowUs).latched = w.latched := by
  unfold feed
  split <;> rfl

@[simp] theorem check_timeout : (w.check nowUs).1.timeoutUs = w.timeoutUs := by
  simp only [check]
  split <;> rfl

variable {w nowUs}

/-- Once latched, the same state is returned and nothing moves. -/
theorem check_latched {s : SafeState} (h : w.latched = some s) (nowUs : UInt64) :
    w.check nowUs = (w, some s) := by
  simp [check, h]

/-- A check that returns nothing leaves the watchdog alone and was not late, in integers. -/
theorem check_none (h : (w.check nowUs).2 = none) :
    (w.check nowUs).1 = w ∧ ¬ w.lastSeenUs.toNat + w.timeoutUs.toNat < nowUs.toNat := by
  simp only [check] at h ⊢
  split at h
  · simp at h
  · rename_i hcheck
    refine ⟨if_neg hcheck, fun hlate => hcheck ⟨?_, ?_⟩⟩
    · rw [h]
      rfl
    · -- a sum below a timestamp does not wrap
      have hrange := hlate.trans nowUs.toNat_lt
      rw [gt_iff_lt, UInt64.lt_iff_toNat_lt, UInt64.toNat_add, Nat.mod_eq_of_lt hrange]
      exact hlate

/-- Feeding with a timestamp that is not earlier moves the last-seen time to it. -/
theorem feed_eq (h : w.lastSeenUs ≤ nowUs) : w.feed nowUs = { w with lastSeenUs := nowUs } := by
  unfold feed
  split
  · rfl
  -- the other branch is taken only when the two timestamps are equal
  · rename_i hnot
    obtain rfl := UInt64.le_antisymm h (UInt64.not_lt.mp hnot)
    rfl

/-- Feeding twice with one timestamp is feeding once. -/
@[simp] theorem feed_feed : (w.feed nowUs).feed nowUs = w.feed nowUs := by
  by_cases h : nowUs > w.lastSeenUs <;> simp [feed, h]

/-- An unlatched check whose deadline is in range latches exactly past the budget, in integers. -/
theorem check_unlatched {timeoutUs lastSeenUs : UInt64}
    (hrange : lastSeenUs.toNat + timeoutUs.toNat < 2 ^ 64) (nowUs : UInt64) :
    check ⟨timeoutUs, lastSeenUs, none⟩ nowUs =
      if lastSeenUs.toNat + timeoutUs.toNat < nowUs.toNat then
        (⟨timeoutUs, lastSeenUs, some ⟨.sensorStale lastSeenUs nowUs timeoutUs⟩⟩,
          some ⟨.sensorStale lastSeenUs nowUs timeoutUs⟩)
      else (⟨timeoutUs, lastSeenUs, none⟩, none) := by
  have hdeadline : nowUs > lastSeenUs + timeoutUs ↔
      lastSeenUs.toNat + timeoutUs.toNat < nowUs.toNat := by
    rw [gt_iff_lt, UInt64.lt_iff_toNat_lt, UInt64.toNat_add, Nat.mod_eq_of_lt hrange]
  simp only [check, hdeadline, Option.isNone_none, true_and]
  split <;> rfl

end Watchdog

end Fieldbus
