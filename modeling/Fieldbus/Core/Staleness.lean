import Fieldbus.Core.Latch

/-!
# When the watchdog trips

A node is stepped at times `times 0, times 1, ..` with frames `received 0, received 1, ..`.
`lastAccepted` is the specification's clock: the latest step at which some frame was accepted.
`first_trip_iff` says that the first latched step is the first step more than the budget after it,
and bounds the reaction time by the budget plus the largest gap between two steps.
-/

namespace Fieldbus.ControlNode

open J1939

variable {F : Type} [Scalar F]

/-- A node freshly built at `startUs` with budget `timeoutUs`, or one with that budget that was
just reset at `startUs`. -/
def Armed (startUs timeoutUs : UInt64) (n : ControlNode F) : Prop :=
  n = withWatchdogTimeout startUs timeoutUs ∨
    ∃ m : ControlNode F, m.watchdog.timeoutUs = timeoutUs ∧ n = m.reset startUs

section Schedule

variable (n : ControlNode F) (times : Nat → UInt64) (received : Nat → List Frame)

/-- The node before the step with the given index. -/
def nodeAt : Nat → ControlNode F
  | 0 => n
  | k + 1 => ((nodeAt k).step (times k) (received k)).1

/-- The output of the step with the given index. -/
def outputAt (k : Nat) : StepOutput F :=
  ((nodeAt n times received k).step (times k) (received k)).2

/-- The step with the given index accepted some frame. -/
def AcceptsAt (k : Nat) : Prop :=
  (nodeAt n times received k).validator.acceptedPayloads (received k) ≠ []

instance (k : Nat) : Decidable (AcceptsAt n times received k) :=
  inferInstanceAs (Decidable (_ ≠ _))

/-- The time of the latest of the first `k` steps that accepted some frame, `startUs` if none. -/
def lastAccepted (startUs : UInt64) : Nat → UInt64
  | 0 => startUs
  | k + 1 => if AcceptsAt n times received k then times k else lastAccepted startUs k

/-- More than the budget lies between the last acceptance and the step. -/
def Overdue (startUs timeoutUs : UInt64) (k : Nat) : Prop :=
  timeoutUs.toNat < (times k).toNat - (lastAccepted n times received startUs (k + 1)).toNat

end Schedule

variable {n : ControlNode F} {times : Nat → UInt64} {received : Nat → List Frame}
  {startUs timeoutUs : UInt64}

theorem Armed.watchdog (h : Armed startUs timeoutUs n) :
    n.watchdog = Watchdog.new timeoutUs startUs := by
  rcases h with rfl | ⟨m, rfl, rfl⟩ <;> rfl

section Run

variable (hmono : ∀ k, times k ≤ times (k + 1)) (hstart : startUs ≤ times 0)

include hmono hstart

/-- The last acceptance is never in the future. -/
theorem last_accepted_le (k : Nat) : lastAccepted n times received startUs k ≤ times k := by
  induction k with
  | zero => exact hstart
  | succ k ih =>
      rw [lastAccepted]
      split
      · exact hmono k
      · exact UInt64.le_trans ih (hmono k)

/-- The receive loop of a step moves an unlatched watchdog to the step's last acceptance. -/
theorem reception_staleness {k : Nat}
    (h : (nodeAt n times received k).watchdog =
      ⟨timeoutUs, lastAccepted n times received startUs k, none⟩) :
    ((nodeAt n times received k).reception (times k) (received k)).watchdog =
      ⟨timeoutUs, lastAccepted n times received startUs (k + 1), none⟩ := by
  have hle : (nodeAt n times received k).watchdog.lastSeenUs ≤ times k := by
    rw [h]
    exact last_accepted_le hmono hstart k
  rw [reception_watchdog, Watchdog.feed_eq hle, lastAccepted, h]
  by_cases haccepts : AcceptsAt n times received k
  · rw [if_neg haccepts, if_pos haccepts]
  · rw [if_pos (not_not.mp haccepts), if_neg haccepts]

variable (hrange : ∀ k,
  (lastAccepted n times received startUs k).toNat + timeoutUs.toNat < 2 ^ 64)

include hrange

/-- One step of an unlatched node: it latches with the step's own timestamps exactly when the step
is overdue, and otherwise the watchdog stands at the step's last acceptance. -/
theorem step_staleness {k : Nat}
    (h : (nodeAt n times received k).watchdog =
      ⟨timeoutUs, lastAccepted n times received startUs k, none⟩) :
    (Overdue n times received startUs timeoutUs k ∧
      (outputAt n times received k).safeState =
        some ⟨.sensorStale (lastAccepted n times received startUs (k + 1)) (times k)
          timeoutUs⟩) ∨
    (¬ Overdue n times received startUs timeoutUs k ∧
      (outputAt n times received k).safeState = none ∧
      (nodeAt n times received (k + 1)).watchdog =
        ⟨timeoutUs, lastAccepted n times received startUs (k + 1), none⟩) := by
  have hcheck := Watchdog.check_unlatched (hrange (k + 1)) (times k)
  rw [← reception_staleness hmono hstart h] at hcheck
  have hle : (lastAccepted n times received startUs (k + 1)).toNat ≤ (times k).toNat := by
    rw [lastAccepted]
    split
    · exact Nat.le_refl _
    · exact UInt64.le_iff_toNat_le.mp (last_accepted_le hmono hstart k)
  rw [outputAt, step_safe_state, nodeAt, step_watchdog, Overdue, hcheck]
  split
  · exact .inl ⟨by omega, rfl⟩
  · refine .inr ⟨by omega, rfl, ?_⟩
    exact reception_staleness hmono hstart h

/-- As long as no step was overdue, no step latched and the watchdog stands at the last
acceptance. -/
theorem unlatched_staleness (harmed : Armed startUs timeoutUs n) {k : Nat}
    (h : ∀ j < k, ¬ Overdue n times received startUs timeoutUs j) :
    (∀ j < k, (outputAt n times received j).safeState = none) ∧
      (nodeAt n times received k).watchdog =
        ⟨timeoutUs, lastAccepted n times received startUs k, none⟩ := by
  induction k with
  | zero => exact ⟨by simp, harmed.watchdog⟩
  | succ k ih =>
      obtain ⟨hquiet, hwatchdog⟩ := ih (fun j hj => h j (by omega))
      rcases step_staleness hmono hstart hrange hwatchdog with ⟨hoverdue, -⟩ | ⟨-, hnone, hnext⟩
      · exact absurd hoverdue (h k (by omega))
      · refine ⟨fun j hj => ?_, hnext⟩
        rcases Nat.lt_succ_iff_lt_or_eq.mp hj with hj | rfl
        · exact hquiet j hj
        · exact hnone

/-- The first overdue step latches, with its own time and that of the last acceptance. -/
theorem first_overdue_latches (harmed : Armed startUs timeoutUs n) {k : Nat}
    (hk : Overdue n times received startUs timeoutUs k)
    (hfirst : ∀ j < k, ¬ Overdue n times received startUs timeoutUs j) :
    (outputAt n times received k).safeState =
      some ⟨.sensorStale (lastAccepted n times received startUs (k + 1)) (times k) timeoutUs⟩ := by
  obtain ⟨-, hwatchdog⟩ := unlatched_staleness hmono hstart hrange harmed hfirst
  rcases step_staleness hmono hstart hrange hwatchdog with ⟨-, hlatch⟩ | ⟨hnot, -⟩
  · exact hlatch
  · exact absurd hk hnot

/-- A step that latched first was the first overdue one. -/
theorem first_latch_overdue (harmed : Armed startUs timeoutUs n) {k : Nat}
    (hk : (outputAt n times received k).safeState.isSome)
    (hfirst : ∀ j < k, (outputAt n times received j).safeState = none) :
    Overdue n times received startUs timeoutUs k ∧
      ∀ j < k, ¬ Overdue n times received startUs timeoutUs j := by
  have hquiet : ∀ j < k, ¬ Overdue n times received startUs timeoutUs j := by
    intro j
    -- the earliest overdue step would itself have latched, against hfirst
    induction j using Nat.strong_induction_on with
    | h j ih =>
        intro hj hoverdue
        have hlatch := first_overdue_latches hmono hstart hrange harmed hoverdue
          (fun i hi => ih i hi (by omega))
        rw [hfirst j hj] at hlatch
        cases hlatch
  obtain ⟨-, hwatchdog⟩ := unlatched_staleness hmono hstart hrange harmed hquiet
  rcases step_staleness hmono hstart hrange hwatchdog with ⟨hoverdue, -⟩ | ⟨-, hnone, -⟩
  · exact ⟨hoverdue, hquiet⟩
  · simp [hnone] at hk

omit hmono hstart hrange in
/-- The first overdue step lies at most one gap past the budget. -/
theorem first_overdue_bounded {gap k : Nat}
    (hgap : (times 0).toNat - startUs.toNat ≤ gap ∧
      ∀ j, (times (j + 1)).toNat - (times j).toNat ≤ gap)
    (hk : Overdue n times received startUs timeoutUs k)
    (hfirst : ∀ j < k, ¬ Overdue n times received startUs timeoutUs j) :
    (times k).toNat - (lastAccepted n times received startUs (k + 1)).toNat ≤
      timeoutUs.toNat + gap := by
  -- an accepting step is never overdue, so the last acceptance predates this step
  have hsilent : ¬ AcceptsAt n times received k := by
    intro haccepts
    rw [Overdue, lastAccepted, if_pos haccepts] at hk
    omega
  rw [lastAccepted, if_neg hsilent]
  cases k with
  | zero =>
      rw [lastAccepted]
      omega
  -- the step before was not overdue and heard nothing later, and this one is a gap later
  | succ k =>
      have hbefore := hfirst k (by omega)
      rw [Overdue] at hbefore
      have hstep := hgap.2 k
      omega

end Run

/-- The exact trip condition and the bounded reaction of a node armed at `startUs` with budget
`timeoutUs`, for any non-decreasing step times and any frames: a step is the first latched one
exactly when it is the first that lies more than the budget after the latest acceptance (rejected
frames do not count), it records these two times, and with steps at most `gap` apart the time
between them exceeds the budget by at most `gap`. -/
theorem first_trip_iff (harmed : Armed startUs timeoutUs n)
    (hmono : ∀ k, times k ≤ times (k + 1)) (hstart : startUs ≤ times 0)
    (hrange : ∀ k, (lastAccepted n times received startUs k).toNat + timeoutUs.toNat < 2 ^ 64) :
    (∀ k, ((outputAt n times received k).safeState.isSome ∧
        ∀ j < k, (outputAt n times received j).safeState = none) ↔
      (Overdue n times received startUs timeoutUs k ∧
        ∀ j < k, ¬ Overdue n times received startUs timeoutUs j)) ∧
    ∀ k s, (outputAt n times received k).safeState = some s →
      (∀ j < k, (outputAt n times received j).safeState = none) →
      s = ⟨.sensorStale (lastAccepted n times received startUs (k + 1)) (times k) timeoutUs⟩ ∧
      s.timeSinceLastAcceptedUs.toNat =
        (times k).toNat - (lastAccepted n times received startUs (k + 1)).toNat ∧
      ∀ gap, ((times 0).toNat - startUs.toNat ≤ gap ∧
          ∀ j, (times (j + 1)).toNat - (times j).toNat ≤ gap) →
        timeoutUs.toNat < s.timeSinceLastAcceptedUs.toNat ∧
          s.timeSinceLastAcceptedUs.toNat ≤ timeoutUs.toNat + gap := by
  refine ⟨fun k => ⟨fun ⟨hk, hfirst⟩ => ?_, fun ⟨hk, hfirst⟩ => ⟨?_, ?_⟩⟩, ?_⟩
  · exact first_latch_overdue hmono hstart hrange harmed hk hfirst
  · rw [first_overdue_latches hmono hstart hrange harmed hk hfirst]
    rfl
  · exact (unlatched_staleness hmono hstart hrange harmed hfirst).1
  · intro k s hs hfirst
    obtain ⟨hoverdue, hquiet⟩ := first_latch_overdue hmono hstart hrange harmed
      (by rw [hs]; rfl) hfirst
    have hlatch := first_overdue_latches hmono hstart hrange harmed hoverdue hquiet
    obtain rfl := Option.some.inj (hs.symm.trans hlatch)
    have htime : (Watchdog.saturatingSub (times k)
        (lastAccepted n times received startUs (k + 1))).toNat =
        (times k).toNat - (lastAccepted n times received startUs (k + 1)).toNat := by
      rw [Watchdog.saturating_sub_toNat]
    refine ⟨rfl, htime, fun gap hgap => ?_⟩
    rw [Watchdog.SafeState.timeSinceLastAcceptedUs, htime]
    exact ⟨hoverdue, first_overdue_bounded hgap hoverdue hquiet⟩

/-- A node with a 5 microsecond budget that accepts a frame at 3 and hears nothing at 9 trips in
that second step, 6 microseconds after the frame. -/
theorem first_trip_second_step :
    let times : Nat → UInt64 := fun k => if k = 0 then 3 else 9
    let received : Nat → List Frame := fun k => if k = 0 then [sensorFrame 7 1 statusOk] else []
    let n : ControlNode ℚ := withWatchdogTimeout 0 5
    (outputAt n times received 1).safeState.isSome ∧
      ∀ j < 1, (outputAt n times received j).safeState = none := by
  intro times received n
  have harmed : Armed 0 5 n := .inl rfl
  have hmono : ∀ k, times k ≤ times (k + 1) := by
    intro k
    cases k with
    | zero => decide
    | succ k => exact UInt64.le_refl 9
  have hstart : 0 ≤ times 0 := by decide
  have hrange : ∀ k, (lastAccepted n times received 0 k).toNat + (5 : UInt64).toNat < 2 ^ 64 := by
    intro k
    have hlast : lastAccepted n times received 0 k ≤ times k := last_accepted_le hmono hstart k
    have hnine : times k ≤ 9 := by
      cases k with
      | zero => decide
      | succ k => exact UInt64.le_refl 9
    have hbound : _ ≤ 9 := UInt64.le_iff_toNat_le.mp (UInt64.le_trans hlast hnine)
    have hfive : (5 : UInt64).toNat = 5 := rfl
    omega
  have haccepts : AcceptsAt n times received 0 := by
    have hok : n.validator.classify (sensorFrame 7 1 statusOk) = .ok ⟨7, 1, statusOk⟩ :=
      (Validator.classify_ok_iff _ _ _).mpr ⟨sensor_frame_layout _ _ _, rfl, rfl⟩
    show n.validator.acceptedPayloads [sensorFrame 7 1 statusOk] ≠ []
    simp [Validator.accepted_payloads_ok hok]
  have hsilent : ¬ AcceptsAt n times received 1 := not_not.mpr rfl
  have hthree : lastAccepted n times received 0 1 = 3 := by
    rw [lastAccepted, if_pos haccepts]
    rfl
  refine ((first_trip_iff harmed hmono hstart hrange).1 1).mpr ⟨?_, fun j hj => ?_⟩
  · rw [Overdue, lastAccepted, if_neg hsilent, hthree]
    decide
  · obtain rfl : j = 0 := by omega
    rw [Overdue, hthree]
    decide

end Fieldbus.ControlNode
