import Fieldbus.Library.Planar
import Fieldbus.Core.AntiWindup
import Fieldbus.Host.Bus

/-!
# Settling of the control loop

The controller of the node against the first-order plant of the simulated bus, over exact
arithmetic. From every start within the actuator limits the output stays strictly inside them
(`InRange.step`), so one period is linear in the error and the output's distance from the setpoint
(`InRange.deviation_step`). That linear map has determinant 0.92 and no real eigenvalue, and the
error dies out with the powers of the determinant (`sq_error_le`).
-/

namespace Fieldbus

/-- The controller and the plant it drives. -/
structure Loop (F : Type) where
  pi : Pi F
  plant : F

namespace Loop

section Definitions

variable {F : Type} [Scalar F]

/-- A fresh controller with the node's gains and limits, before a plant at the given value. -/
def start (plant : F) : Loop F :=
  ⟨Pi.new kp ki outMin outMax, plant⟩

/-- One period: the controller reads the plant, and the plant moves towards the output. -/
def step (l : Loop F) : Loop F :=
  let (pi, u) := l.pi.update setpoint l.plant
  ⟨pi, l.plant + plantGain * (u - l.plant)⟩

/-- The output of the next period. -/
def output (l : Loop F) : F := (l.pi.update setpoint l.plant).2

end Definitions

/-- The output of the next period before the limits. -/
def unsaturated (l : Loop ℚ) : ℚ := l.pi.unsaturated (setpoint - l.plant)

/-- The node's gains and limits, a plant within the limits, and an output strictly inside them. -/
structure InRange (l : Loop ℚ) : Prop where
  pi_eq : l.pi = ⟨0.6, 4, -1000, 1000, l.pi.integral⟩
  plant_lower : -1000 ≤ l.plant
  plant_upper : l.plant ≤ 1000
  output_lower : -960 ≤ l.unsaturated
  output_upper : l.unsaturated ≤ 996

/-- The control error and the output's distance from the setpoint. -/
def deviation (l : Loop ℚ) : ℚ × ℚ := (500 - l.plant, l.unsaturated - 500)

/-- One period of the unsaturated loop, on deviations. -/
def linear : Planar ℚ := ⟨0.95, -0.05, 0.008, 0.968⟩

variable {l : Loop ℚ}

theorem setpoint_eq : (setpoint : ℚ) = 500 := by
  show (500.0 : ℚ) = 500
  norm_num

theorem pi_new_eq : (Pi.new kp ki outMin outMax : Pi ℚ) = ⟨0.6, 4, -1000, 1000, 0⟩ := by
  have hle : (outMin : ℚ) ≤ outMax := by
    show (-1000 : ℚ) ≤ 1000
    norm_num
  show Pi.new (0.60 : ℚ) 4.00 outMin outMax = ⟨0.6, 4, -1000, 1000, 0⟩
  simp only [Pi.new, if_pos hle, Pi.mk.injEq]
  refine ⟨by norm_num, by norm_num, rfl, rfl, rfl⟩

/-- The unsaturated output of a controller with the node's gains. -/
theorem unsaturated_eq (hpi : l.pi = ⟨0.6, 4, -1000, 1000, l.pi.integral⟩) :
    l.unsaturated = 0.6 * (500 - l.plant) + 4 * (l.pi.integral + (500 - l.plant) * 0.010) := by
  unfold unsaturated Pi.unsaturated
  rw [setpoint_eq, hpi]
  rfl

theorem start_pi (plant : ℚ) :
    (start plant).pi = ⟨0.6, 4, -1000, 1000, (start plant).pi.integral⟩ := by
  rw [start, pi_new_eq]

theorem start_unsaturated (plant : ℚ) : (start plant).unsaturated = 0.64 * (500 - plant) := by
  rw [unsaturated_eq (start_pi plant), start, pi_new_eq]
  ring

namespace InRange

theorem start {plant : ℚ} (hlower : -1000 ≤ plant) (hupper : plant ≤ 1000) :
    (Loop.start plant).InRange := by
  refine ⟨start_pi plant, hlower, hupper, ?_, ?_⟩
  · rw [start_unsaturated]
    linarith
  · rw [start_unsaturated]
    linarith

/-- In range, the limits do not engage: the error is integrated and the output is returned whole. -/
theorem update_eq (h : l.InRange) :
    l.pi.update setpoint l.plant =
      ({ l.pi with integral := l.pi.integral + (setpoint - l.plant) * periodS },
        l.unsaturated) := by
  have hlower := h.output_lower
  have hupper := h.output_upper
  have hmin : l.pi.outMin = -1000 := by rw [h.pi_eq]
  have hmax : l.pi.outMax = 1000 := by rw [h.pi_eq]
  apply Pi.update_integrates
  · show l.pi.outMin ≤ l.unsaturated
    linarith
  · show l.unsaturated ≤ l.pi.outMax
    linarith

/-- One period in range is linear. -/
theorem step_eq (h : l.InRange) :
    l.step = ⟨{ l.pi with integral := l.pi.integral + (500 - l.plant) * 0.010 },
      l.plant + 0.05 * (l.unsaturated - l.plant)⟩ := by
  unfold step
  rw [h.update_eq, setpoint_eq]
  rfl

theorem step_plant (h : l.InRange) :
    l.step.plant = l.plant + 0.05 * (l.unsaturated - l.plant) := by
  rw [h.step_eq]

theorem step_unsaturated (h : l.InRange) :
    l.step.unsaturated = 500 + 0.008 * (500 - l.plant) + 0.968 * (l.unsaturated - 500) := by
  have hpi : l.step.pi = ⟨0.6, 4, -1000, 1000, l.step.pi.integral⟩ := by rw [h.step_eq, h.pi_eq]
  have hbefore := unsaturated_eq h.pi_eq
  rw [unsaturated_eq hpi, h.step_eq]
  simp only
  linarith

/-- A period keeps the loop in range: the plant moves to an average of itself and the output, and
the output moves by a small part of the error. -/
theorem step (h : l.InRange) : l.step.InRange := by
  have hplantLower := h.plant_lower
  have hplantUpper := h.plant_upper
  have houtputLower := h.output_lower
  have houtputUpper := h.output_upper
  have hplant := h.step_plant
  have hunsaturated := h.step_unsaturated
  refine ⟨?_, ?_, ?_, ?_, ?_⟩
  · rw [h.step_eq, h.pi_eq]
  all_goals linarith

theorem iterate (h : l.InRange) (n : ℕ) : (Loop.step^[n] l).InRange := by
  induction n with
  | zero => exact h
  | succ n ih =>
      rw [Function.iterate_succ_apply']
      exact ih.step

theorem deviation_step (h : l.InRange) : l.step.deviation = linear.apply l.deviation := by
  have hplant := h.step_plant
  have hunsaturated := h.step_unsaturated
  apply Prod.ext
  · simp only [deviation, linear, Planar.apply]
    linarith
  · simp only [deviation, linear, Planar.apply]
    linarith

theorem deviation_iterate (h : l.InRange) (n : ℕ) :
    (Loop.step^[n] l).deviation = linear.apply^[n] l.deviation := by
  induction n with
  | zero => rfl
  | succ n ih =>
      rw [Function.iterate_succ_apply', Function.iterate_succ_apply', (h.iterate n).deviation_step,
        ih]

end InRange

variable {plant : ℚ}

theorem start_form (hlower : -1000 ≤ plant) (hupper : plant ≤ 1000) :
    linear.form (start plant).deviation ≤ 43000 := by
  have hdeviation : (start plant).deviation = (500 - plant, 0.64 * (500 - plant) - 500) := by
    apply Prod.ext
    · rfl
    · show (start plant).unsaturated - 500 = _
      rw [start_unsaturated]
  have hends : 0 ≤ (plant + 1000) * (1000 - plant) := mul_nonneg (by linarith) (by linarith)
  rw [hdeviation]
  simp only [Planar.form, Planar.apply, linear]
  nlinarith

/-- The error after any number of periods, against the power of the determinant. -/
theorem sq_error_le (hlower : -1000 ≤ plant) (hupper : plant ≤ 1000) (n : ℕ) :
    0.001276 * (500 - (step^[n] (start plant)).plant) ^ 2 ≤ 0.2 * (0.92 ^ n * 43000) := by
  have hdet : linear.det = 0.92 := by norm_num [linear, Planar.det]
  have hspread : linear.spread = 0.001276 := by norm_num [linear, Planar.spread, Planar.det]
  have hb : -4 * linear.b = 0.2 := by norm_num [linear]
  have hdecay := linear.sq_iterate_le (start plant).deviation n
  rw [← (InRange.start hlower hupper).deviation_iterate, hdet, hspread, hb] at hdecay
  have hform := mul_le_mul_of_nonneg_left (start_form hlower hupper)
    (pow_nonneg (by norm_num : (0 : ℚ) ≤ 0.92) n)
  have herror : (step^[n] (start plant)).deviation.1 = 500 - (step^[n] (start plant)).plant := rfl
  rw [herror] at hdecay
  linarith

/-- Two hundred periods bring the plant within one unit of the setpoint, for good. -/
theorem error_lt_one (hlower : -1000 ≤ plant) (hupper : plant ≤ 1000) {n : ℕ} (hn : 200 ≤ n) :
    |(step^[n] (start plant)).plant - setpoint| < 1 := by
  have hpow : (0.92 : ℚ) ^ n ≤ 0.92 ^ 200 :=
    pow_le_pow_of_le_one (by norm_num) (by norm_num) hn
  have hsmall : (0.92 : ℚ) ^ 200 < 1 / 10 ^ 7 := by norm_num
  have hdecay := sq_error_le hlower hupper n
  rw [setpoint_eq, abs_sub_comm, ← sq_lt_one_iff_abs_lt_one]
  linarith

/-- From every start within the limits the output never saturates and the plant settles. -/
theorem settles (hlower : -1000 ≤ plant) (hupper : plant ≤ 1000) :
    (∀ n, (outMin < (step^[n] (start plant)).unsaturated ∧
        (step^[n] (start plant)).unsaturated < outMax) ∧
      (step^[n] (start plant)).output = (step^[n] (start plant)).unsaturated) ∧
    ∀ n, 4000 ≤ n → |(step^[n] (start plant)).plant - setpoint| < 1 := by
  refine ⟨fun n ↦ ?_, fun n hn ↦ error_lt_one hlower hupper (by omega)⟩
  have h := (InRange.start hlower hupper).iterate n
  refine ⟨⟨lt_of_lt_of_le ?_ h.output_lower, lt_of_le_of_lt h.output_upper ?_⟩, ?_⟩
  · show (-1000 : ℚ) < -960
    norm_num
  · show (996 : ℚ) < 1000
    norm_num
  · rw [output, h.update_eq]

/-- The run from rest. -/
theorem settles_from_rest :
    (∀ n, (outMin < (step^[n] (start (0 : ℚ))).unsaturated ∧
        (step^[n] (start (0 : ℚ))).unsaturated < outMax) ∧
      (step^[n] (start (0 : ℚ))).output = (step^[n] (start (0 : ℚ))).unsaturated) ∧
    ∀ n, 4000 ≤ n → |(step^[n] (start (0 : ℚ))).plant - setpoint| < 1 :=
  settles (by norm_num) (by norm_num)

end Loop

end Fieldbus
