import Fieldbus.Core.Reset
import Fieldbus.Core.Staleness

/-!
# Control before the first reading

Until a frame is accepted the filter has no value, yet `step` runs the control law on the zero that
stands in its place. `silent_start_iff` says exactly when a node that has accepted nothing since it
was built or reset keeps the safe actuator value and a zero integral: when its watchdog trips in the
first step. `first_step_commands_output` is a first step that does neither.
-/

namespace Fieldbus

open J1939

variable {F : Type} [Scalar F]

/-- An update adds the whole error of the period to the integral or leaves it alone. -/
theorem Pi.update_integral (c : Pi F) (setpoint measurement : F) :
    (c.update setpoint measurement).1.integral = c.integral ∨
      (c.update setpoint measurement).1.integral =
        c.integral + (setpoint - measurement) * periodS := by
  simp only [Pi.update]
  split
  · exact .inr rfl
  · exact .inl rfl

namespace ControlNode

/-- A node just built at `startUs`, or one that was just reset at `startUs` after any history. -/
def Started (startUs timeoutUs : UInt64) (n : ControlNode F) : Prop :=
  n = withWatchdogTimeout startUs timeoutUs ∨ ∃ firstUs inputs,
    n = (Machine.final stepInput (withWatchdogTimeout firstUs timeoutUs) inputs).reset startUs

variable {startUs timeoutUs : UInt64}

/-- A started node is a new one but for its validator and its command number. -/
theorem Started.eq_new {n : ControlNode F} (h : Started startUs timeoutUs n) :
    n = { (withWatchdogTimeout startUs timeoutUs : ControlNode F) with
      validator := n.validator, txSeq := n.txSeq } := by
  rcases h with rfl | ⟨firstUs, inputs, rfl⟩
  · rfl
  · have hreset := (configured_run firstUs timeoutUs inputs : Configured timeoutUs
      (Machine.final stepInput (withWatchdogTimeout firstUs timeoutUs : ControlNode F)
        inputs)).reset_eq startUs
    rw [hreset]

section Silent

variable {n : ControlNode ℚ} {times : Nat → UInt64} {received : Nat → List Frame}

/-- A node with a positive integral that has seen no reading since it started. -/
structure Drifting (n : ControlNode ℚ) : Prop where
  setpoint : n.setpoint = 500
  value : n.filter.value = 0
  integral : 0 < n.pi.integral

/-- What the control law of a started node does without a reading: it integrates the whole setpoint
and commands 320. -/
theorem control_started (hpi : n.pi = Pi.new kp ki outMin outMax) (hvalue : n.filter.value = 0)
    (hsetpoint : n.setpoint = 500) :
    (n.control none).2.1.integral = 5 ∧ (n.control none).2.2 = 320 := by
  have hcontrol : (n.control none).2 = (Pi.new kp ki outMin outMax : Pi ℚ).update 500 0 := by
    simp only [control, hpi, hvalue, hsetpoint]
  rw [hcontrol]
  constructor <;> decide +kernel

/-- The integral of a drifting node never goes back: every step without a reading adds a positive
error to it or leaves it alone. -/
theorem Drifting.step (h : Drifting n) {nowUs : UInt64} {frames : List Frame}
    (hsilent : n.validator.acceptedPayloads frames = []) :
    Drifting (n.step nowUs frames).1 := by
  cases hcheck : ((n.reception nowUs frames).watchdog.check nowUs).2 with
  | some s =>
      rw [step_safe hcheck]
      exact ⟨h.setpoint, h.value, h.integral⟩
  | none =>
      rw [step_normal hcheck, (silent_reception hsilent).2]
      refine ⟨h.setpoint, h.value, ?_⟩
      have hpositive := h.integral
      have hperiod : (0 : ℚ) < (500 - 0) * periodS := by decide +kernel
      show 0 < (n.pi.update n.setpoint n.filter.value).1.integral
      rw [h.setpoint, h.value]
      rcases n.pi.update_integral 500 0 with hsame | hmoved
      · rwa [hsame]
      · rw [hmoved]
        exact add_pos hpositive hperiod

/-- A started node whose first step comes later than its budget allows is latched from then on, with
the filter and the controller it started with. -/
theorem silent_start_trips (h : Started startUs timeoutUs n)
    (hsilent : ¬ AcceptsAt n times received 0) (htrip : startUs + timeoutUs < times 0) (k : Nat) :
    ∃ s, Latched s n.filter n.pi (nodeAt n times received (k + 1)) ∧
      SafeOutput s (outputAt n times received k) := by
  induction k with
  | zero =>
      have hwatchdog : (n.reception (times 0) (received 0)).watchdog =
          Watchdog.new timeoutUs startUs := by
        have hfirst : n.validator.acceptedPayloads (received 0) = [] := not_not.mp hsilent
        rw [(silent_reception hfirst).1, h.eq_new]
        rfl
      have hcheck : ((n.reception (times 0) (received 0)).watchdog.check (times 0)).2 =
          some ⟨.sensorStale startUs (times 0) timeoutUs⟩ := by
        simp [hwatchdog, Watchdog.check, Watchdog.new, htrip]
      exact ⟨_, step_latches hcheck⟩
  | succ k ih =>
      obtain ⟨s, hlatched, -⟩ := ih
      exact ⟨s, hlatched.step _ _⟩

/-- A started node that hears nothing and whose first step is within its budget drifts from then
on. -/
theorem silent_start_drifts (h : Started startUs timeoutUs n) {k : Nat}
    (hsilent : ∀ j ≤ k, ¬ AcceptsAt n times received j) (htrip : ¬ startUs + timeoutUs < times 0) :
    Drifting (nodeAt n times received (k + 1)) := by
  induction k with
  | zero =>
      have hfirst : n.validator.acceptedPayloads (received 0) = [] :=
        not_not.mp (hsilent 0 (Nat.le_refl 0))
      have hcheck : ((n.reception (times 0) (received 0)).watchdog.check (times 0)).2 = none := by
        rw [(silent_reception hfirst).1, h.eq_new]
        simp [Watchdog.check, withWatchdogTimeout, Watchdog.new, htrip]
      have hsetpoint : n.setpoint = 500 := by
        rw [h.eq_new]
        show (500.0 : ℚ) = 500
        norm_num
      have hvalue : n.filter.value = 0 := by
        rw [h.eq_new]
        rfl
      have hcontrol := control_started (by rw [h.eq_new]; rfl) hvalue hsetpoint
      rw [nodeAt, nodeAt, step_normal hcheck, (silent_reception hfirst).2]
      refine ⟨hsetpoint, hvalue, ?_⟩
      show 0 < (n.control none).2.1.integral
      rw [hcontrol.1]
      norm_num
  | succ k ih =>
      have hbefore := ih fun j hj => hsilent j (Nat.le_succ_of_le hj)
      exact hbefore.step (not_not.mp (hsilent (k + 1) (Nat.le_refl _)))

/-- When control waits for a reading. A node that was just built or reset and has accepted no frame
up to a step commands the safe actuator value in this step and keeps its integral at zero exactly if
its very first step came later than its start plus its budget, so that the watchdog tripped
there. -/
theorem silent_start_iff (h : Started startUs timeoutUs n) {k : Nat}
    (hsilent : ∀ j ≤ k, ¬ AcceptsAt n times received j) :
    ((outputAt n times received k).actuator = safeActuator ∧
        (nodeAt n times received (k + 1)).pi.integral = 0) ↔
      startUs + timeoutUs < times 0 := by
  by_cases htrip : startUs + timeoutUs < times 0
  · obtain ⟨s, hlatched, hout⟩ := silent_start_trips h (hsilent 0 (Nat.zero_le k)) htrip k
    refine ⟨fun _ => htrip, fun _ => ⟨hout.actuator, ?_⟩⟩
    rw [hlatched.pi, h.eq_new]
    rfl
  · refine ⟨fun hsafe => ?_, fun hlate => absurd hlate htrip⟩
    have hdrifting := silent_start_drifts h hsilent htrip
    exact absurd hsafe.2 hdrifting.integral.ne'

/-- A node with a 5 microsecond budget whose first step comes at 10. -/
theorem silent_start_iff_late :
    let n : ControlNode ℚ := withWatchdogTimeout 0 5
    (outputAt n (fun _ => 10) (fun _ => []) 3).actuator = safeActuator ∧
      (nodeAt n (fun _ => 10) (fun _ => []) 4).pi.integral = 0 :=
  (silent_start_iff (.inl rfl) fun _ _ => not_not.mpr rfl).mpr (by decide)

/-- A new node with the default budget that hears nothing in its first period commands 320 and
integrates. -/
theorem first_step_commands_output :
    let n : ControlNode ℚ := .new 0
    let times : Nat → UInt64 := fun _ => periodUs
    let received : Nat → List Frame := fun _ => []
    ¬ AcceptsAt n times received 0 ∧ (outputAt n times received 0).safeState = none ∧
      (outputAt n times received 0).actuator = 320 ∧
      (nodeAt n times received 1).pi.integral = 5 := by
  intro n times received
  refine ⟨not_not.mpr rfl, ?_, ?_, ?_⟩ <;> decide +kernel

end Silent

end ControlNode

end Fieldbus
