import Fieldbus.Library.Contraction
import Fieldbus.Host.Settling
import Fieldbus.Host.Virtual

/-!
# Regulation of the simulated plant

The node in the loop of the host against the plant of the simulated bus, over exact arithmetic: the
readings carry noise, the filter smooths them, and the bus takes the command as a whole number. On
the distances of plant, filter and output from the setpoint a period is a linear map and a small
error (`RunState.tuned_step`). One quadratic form keeps the output near the setpoint, where the
limits of the controller do not engage, and another brings the plant near it (`node_regulates`).
-/

namespace Fieldbus

open J1939 Contraction

/-! ## Noise and truncation -/

/-- Truncation moves a value by at most one. -/
theorem abs_sub_truncate_le (q : ℚ) : |q - truncate q| ≤ 1 := by
  unfold truncate
  split
  · have hfloor := Int.floor_le q
    have hnext := Int.lt_floor_add_one q
    rw [abs_le]
    constructor
    · linarith
    · linarith
  · have hceil := Int.le_ceil q
    have hprevious := Int.ceil_lt_add_one q
    rw [abs_le]
    constructor
    · linarith
    · linarith

/-- A value in the range of the cast is cast to one at most one away. -/
theorem abs_sub_cast_le {q : ℚ} (h : |q| ≤ 2000) :
    |q - Scalar.ofI16 (Scalar.toI16 q)| ≤ 1 := by
  have hrange : ((-2000 : ℤ) : ℚ) ≤ q ∧ q ≤ ((2000 : ℤ) : ℚ) := by
    simpa using abs_le.mp h
  have hcast : (Scalar.ofI16 (Scalar.toI16 q) : ℚ) = truncate q :=
    congrArg Int.cast (truncI16_toInt (by norm_num) (by norm_num) hrange)
  rw [hcast]
  exact abs_sub_truncate_le q

/-- A sensor on a plant within the limits reads at most three units away from it. -/
theorem SimBus.abs_reading_sub_le {b : SimBus ℚ} (h : WithinLimits b.plant) :
    |Scalar.ofI16 (b.reading b.noise.2) - b.plant| ≤ 3 := by
  obtain ⟨level, hlower, hupper, hlevel⟩ := SimBus.noise_mem (F := ℚ) (nextRng b.rng)
  have hnoise : b.noise.2 = level := hlevel
  obtain ⟨hplantLower, hplantUpper⟩ : -1000 ≤ b.plant ∧ b.plant ≤ 1000 := by
    exact_mod_cast (h : ((-1000 : ℤ) : ℚ) ≤ b.plant ∧ b.plant ≤ ((1000 : ℤ) : ℚ))
  have hlow : (-2 : ℚ) ≤ level := by exact_mod_cast hlower
  have hhigh : (level : ℚ) ≤ 2 := by exact_mod_cast hupper
  have hcast := abs_sub_cast_le (q := b.plant + b.noise.2)
    (by rw [hnoise, abs_le]; constructor <;> linarith)
  rw [hnoise] at hcast
  obtain ⟨hcastLower, hcastUpper⟩ := abs_le.mp hcast
  rw [reading, hnoise, abs_le]
  constructor
  · linarith
  · linarith

namespace Regulation

/-! ## The loop on deviations -/

/-- One period without noise and truncation, on the distances of the plant and of the filter below
the setpoint, and of the output above it. -/
def linear : Matrix (Fin 3) (Fin 3) ℚ :=
  !![0.9404, 0.0076, -0.05; 0.3, 0.7, 0; 0.192, -0.152, 1]

/-- What the error of the reading and that of the command add in a period. -/
def offset (reading command : ℚ) : Fin 3 → ℚ :=
  ![0.0096 * reading + 0.05 * command, -(0.3 * reading), -(0.192 * reading)]

/-- The deviations after a first cycle with these errors. -/
def start (reading command : ℚ) : Fin 3 → ℚ :=
  ![484 + 0.032 * reading + 0.05 * command, 500 - reading, -180 - 0.64 * reading]

/-- A form that bounds the output. -/
def outputForm : QuadraticForm ℚ (Fin 3 → ℚ) :=
  weighted ![1, 0.02, 0.5] (Matrix.mulVecLin !![1, -0.7, 0.8; 0, 1, 2.5; 0, 0, 1])

/-- A form that bounds the plant. -/
def plantForm : QuadraticForm ℚ (Fin 3 → ℚ) :=
  weighted ![1, 0.05, 1.06] (Matrix.mulVecLin !![-1.43, 1, -1.81; -1.67, 0, 1; 1, 0, 0])

theorem linear_apply (v : Fin 3 → ℚ) :
    linear.mulVec v = ![0.9404 * v 0 + 0.0076 * v 1 - 0.05 * v 2, 0.3 * v 0 + 0.7 * v 1,
      0.192 * v 0 - 0.152 * v 1 + v 2] := by
  ext i
  rw [linear, Matrix.mulVec, dotProduct, Fin.sum_univ_three]
  fin_cases i
  · simp
    ring
  · simp
  · simp
    ring

theorem output_form_apply (v : Fin 3 → ℚ) :
    outputForm v =
      (v 0 - 0.7 * v 1 + 0.8 * v 2) ^ 2 + 0.02 * (v 1 + 2.5 * v 2) ^ 2 + 0.5 * v 2 ^ 2 := by
  rw [outputForm, weighted_apply]
  simp only [Fin.sum_univ_three, Matrix.mulVecBilin_apply, Matrix.mulVec, dotProduct,
    Matrix.of_apply, Matrix.cons_val', Matrix.cons_val_fin_one, Matrix.cons_val_zero,
    Matrix.cons_val_one, Matrix.cons_val]
  ring

theorem plant_form_apply (v : Fin 3 → ℚ) :
    plantForm v =
      (v 1 - 1.81 * v 2 - 1.43 * v 0) ^ 2 + 0.05 * (v 2 - 1.67 * v 0) ^ 2 + 1.06 * v 0 ^ 2 := by
  rw [plantForm, weighted_apply]
  simp only [Fin.sum_univ_three, Matrix.mulVecBilin_apply, Matrix.mulVec, dotProduct,
    Matrix.of_apply, Matrix.cons_val', Matrix.cons_val_fin_one, Matrix.cons_val_zero,
    Matrix.cons_val_one, Matrix.cons_val]
  ring

theorem output_weights_nonneg : ∀ i, 0 ≤ (![1, 0.02, 0.5] : Fin 3 → ℚ) i := by
  intro i
  fin_cases i
  all_goals norm_num

theorem plant_weights_nonneg : ∀ i, 0 ≤ (![1, 0.05, 1.06] : Fin 3 → ℚ) i := by
  intro i
  fin_cases i
  all_goals norm_num

theorem output_form_nonneg (v : Fin 3 → ℚ) : 0 ≤ outputForm v :=
  weighted_nonneg output_weights_nonneg v

theorem plant_form_nonneg (v : Fin 3 → ℚ) : 0 ≤ plantForm v :=
  weighted_nonneg plant_weights_nonneg v

theorem sq_le_output_form (v : Fin 3 → ℚ) : 0.5 * v 2 ^ 2 ≤ outputForm v := by
  have hcoordinate : _ ≤ outputForm v := mul_self_le_weighted output_weights_nonneg v 2
  simpa [Matrix.mulVec, dotProduct, Fin.sum_univ_three, pow_two] using hcoordinate

theorem sq_le_plant_form (v : Fin 3 → ℚ) : 1.06 * v 0 ^ 2 ≤ plantForm v := by
  have hcoordinate : _ ≤ plantForm v := mul_self_le_weighted plant_weights_nonneg v 2
  simpa [Matrix.mulVec, dotProduct, Fin.sum_univ_three, pow_two] using hcoordinate

/-- The output is near the setpoint when the form is small. -/
theorem output_near {v : Fin 3 → ℚ} (h : outputForm v ≤ 16700) : |v 2| ≤ 183 := by
  have hcoordinate := sq_le_output_form v
  apply abs_le_of_sq_le_sq _ (by norm_num)
  linarith

/-- A period contracts the form of the output. -/
theorem output_form_linear (v : Fin 3 → ℚ) :
    outputForm (linear.mulVec v) ≤ 0.99 * 0.99 * outputForm v := by
  rw [linear_apply, output_form_apply, output_form_apply]
  simp only [Matrix.cons_val_zero, Matrix.cons_val_one, Matrix.cons_val]
  -- the difference is a sum of these squares
  have hfirst := sq_nonneg (v 0 - 0.083 * v 2 - 0.848 * v 1)
  have hsecond := sq_nonneg (v 2 + 0.026 * v 1)
  have hthird := sq_nonneg (v 1)
  -- and of these, which take up what the rounding of the coefficients leaves
  have hminus01 := sq_nonneg (v 0 - v 1)
  have hplus01 := sq_nonneg (v 0 + v 1)
  have hminus02 := sq_nonneg (v 0 - v 2)
  have hplus02 := sq_nonneg (v 0 + v 2)
  have hminus12 := sq_nonneg (v 1 - v 2)
  have hplus12 := sq_nonneg (v 1 + v 2)
  linarith

/-- A period contracts the form of the plant. -/
theorem plant_form_linear (v : Fin 3 → ℚ) :
    plantForm (linear.mulVec v) ≤ 0.97 * 0.97 * plantForm v := by
  rw [linear_apply, plant_form_apply, plant_form_apply]
  simp only [Matrix.cons_val_zero, Matrix.cons_val_one, Matrix.cons_val]
  -- the difference is a sum of these squares
  have hfirst := sq_nonneg (v 0 - 0.268 * v 1 + 0.744 * v 2)
  have hsecond := sq_nonneg (v 1 - 0.277 * v 2)
  have hthird := sq_nonneg (v 2)
  -- and of these, which take up what the rounding of the coefficients leaves
  have hminus01 := sq_nonneg (v 0 - v 1)
  have hplus01 := sq_nonneg (v 0 + v 1)
  have hminus02 := sq_nonneg (v 0 - v 2)
  have hplus02 := sq_nonneg (v 0 + v 2)
  have hminus12 := sq_nonneg (v 1 - v 2)
  have hplus12 := sq_nonneg (v 1 + v 2)
  linarith

section Offset

variable {reading command : ℚ} (hreading : |reading| ≤ 3) (hcommand : |command| ≤ 1)

include hreading hcommand

theorem errors_bounded :
    reading ^ 2 ≤ 9 ∧ command ^ 2 ≤ 1 ∧ reading * command ≤ 3 ∧ -3 ≤ reading * command := by
  have hproduct : |reading * command| ≤ 3 := by
    rw [abs_mul]
    nlinarith [abs_nonneg reading, abs_nonneg command]
  refine ⟨?_, ?_, (abs_le.mp hproduct).2, (abs_le.mp hproduct).1⟩
  · rw [← sq_abs]
    nlinarith [abs_nonneg reading]
  · rw [← sq_abs]
    nlinarith [abs_nonneg command]

theorem output_form_offset :
    outputForm (offset reading command) ≤ (1 - 0.99) * (1 - 0.99) * 3370 := by
  obtain ⟨hr, hc, hupper, hlower⟩ := errors_bounded hreading hcommand
  rw [output_form_apply, offset]
  simp only [Matrix.cons_val_zero, Matrix.cons_val_one, Matrix.cons_val]
  linarith

theorem plant_form_offset :
    plantForm (offset reading command) ≤ (1 - 0.97) * (1 - 0.97) * 50 := by
  obtain ⟨hr, hc, hupper, hlower⟩ := errors_bounded hreading hcommand
  rw [plant_form_apply, offset]
  simp only [Matrix.cons_val_zero, Matrix.cons_val_one, Matrix.cons_val]
  linarith

/-- One period with noise and truncation. -/
theorem output_form_step (v : Fin 3 → ℚ) :
    outputForm (linear.mulVec v + offset reading command) ≤
      0.99 * outputForm v + (1 - 0.99) * 3370 :=
  form_step_le output_form_nonneg (by norm_num) (by norm_num) (output_form_linear v)
    (output_form_offset hreading hcommand)

theorem plant_form_step (v : Fin 3 → ℚ) :
    plantForm (linear.mulVec v + offset reading command) ≤
      0.97 * plantForm v + (1 - 0.97) * 50 :=
  form_step_le plant_form_nonneg (by norm_num) (by norm_num) (plant_form_linear v)
    (plant_form_offset hreading hcommand)

theorem output_form_start : outputForm (start reading command) ≤ 16700 := by
  obtain ⟨hr, hc, hupper, hlower⟩ := errors_bounded hreading hcommand
  obtain ⟨hrLower, hrUpper⟩ := abs_le.mp hreading
  obtain ⟨hcLower, hcUpper⟩ := abs_le.mp hcommand
  rw [output_form_apply, start]
  simp only [Matrix.cons_val_zero, Matrix.cons_val_one, Matrix.cons_val]
  linarith

theorem plant_form_start : plantForm (start reading command) ≤ 316000 := by
  obtain ⟨hr, hc, hupper, hlower⟩ := errors_bounded hreading hcommand
  obtain ⟨hrLower, hrUpper⟩ := abs_le.mp hreading
  obtain ⟨hcLower, hcUpper⟩ := abs_le.mp hcommand
  rw [plant_form_apply, start]
  simp only [Matrix.cons_val_zero, Matrix.cons_val_one, Matrix.cons_val]
  linarith

end Offset

end Regulation

namespace RunState

/-! ## One cycle -/

/-- How far the plant and the filter are below the setpoint, and the output above it. -/
def deviation (l : RunState ℚ (SimBus ℚ)) : Fin 3 → ℚ :=
  ![500 - l.bus.plant, 500 - l.node.filter.y, l.lastActuator - 500]

theorem deviation_plant (l : RunState ℚ (SimBus ℚ)) : l.deviation 0 = 500 - l.bus.plant := rfl

theorem deviation_output (l : RunState ℚ (SimBus ℚ)) : l.deviation 2 = l.lastActuator - 500 := rfl

/-- The node's tuning, a filter that holds a value, and the output that belongs to it. -/
structure Tuned (l : RunState ℚ (SimBus ℚ)) : Prop where
  setpoint : l.node.setpoint = 500
  filter : l.node.filter = ⟨0.3, l.node.filter.y, true⟩
  pi : l.node.pi = ⟨0.6, 4, -1000, 1000, l.node.pi.integral⟩
  output : l.lastActuator = 0.6 * (500 - l.node.filter.y) + 4 * l.node.pi.integral

variable {faults : FaultSchedule} {cfg : RunConfig} {clock : Clock} (hogWindow : Option HogWindow)

/-- A cycle that hears the sensor is not stale. -/
theorem not_stale {k : Nat} (h : faults.Emits k) : ¬ Stale faults cfg clock k := by
  rw [Stale, heardAt, if_pos h, startOf, Nat.sub_self]
  exact Nat.not_lt_zero _

/-- A cycle that hears the sensor, in a run that has heard it all along: the node controls on the
reading, and the plant moves towards the cast output. -/
theorem controlled_next {F : Type} [Scalar F] [FiniteScalar F] (h : Forward cfg clock)
    (seed : UInt64) {k : Nat} (hk : k < cfg.cycles.toNat) (hemits : ∀ j ≤ k, faults.Emits j) :
    let l : RunState F (SimBus F) := after (SimBus.new seed faults) cfg clock hogWindow k
    let l' : RunState F (SimBus F) := after (SimBus.new seed faults) cfg clock hogWindow (k + 1)
    let r := l.node.control (some (Scalar.ofI16 (l.bus.reading l.bus.noise.2)))
    (l'.node.setpoint = l.node.setpoint ∧ l'.node.filter = r.1 ∧ l'.node.pi = r.2.1) ∧
      l'.lastActuator = r.2.2 ∧
      l'.bus.plant =
        l.bus.plant + plantGain * (Scalar.ofI16 (Scalar.toI16 r.2.2) - l.bus.plant) := by
  intro l l' r
  obtain ⟨hreg, hcycle, hfaults⟩ := regulated_after (F := F) seed faults cfg clock hogWindow k
  have hemit : l.bus.faults.silent l.bus.cycle = false := by
    rw [hcycle, hfaults]
    exact hemits k (Nat.le_refl k)
  have hwatchdog := watchdog_after (F := F) hogWindow h seed (k := k + 1) hk
    fun j hj => not_stale (hemits j (Nat.le_of_lt_succ hj))
  have hsame : SameControl l' (l.work cfg (UInt64.ofNat k) (scheduled cfg (UInt64.ofNat k))
    (started cfg clock (UInt64.ofNat k))) := same_control_next _
  generalize scheduled cfg (UInt64.ofNat k) = scheduledUs at hsame
  generalize started cfg clock (UInt64.ofNat k) = startUs at hsame
  have hnode : l'.node = (l.stepped (scheduledUs + cfg.periodUs) startUs).1 := hsame.node
  have hcheck : ((l.node.reception startUs
      (l.received (scheduledUs + cfg.periodUs))).watchdog.check startUs).2 = none := by
    rw [← ControlNode.step_safe_state, ControlNode.step_output_latch]
    show (l.stepped (scheduledUs + cfg.periodUs) startUs).1.safeState = none
    rw [← hnode]
    exact congrArg Watchdog.latched hwatchdog
  have hfresh : (l.node.reception startUs (l.received (scheduledUs + cfg.periodUs))).fresh =
      some (Scalar.ofI16 (l.bus.reading l.bus.noise.2)) := by
    rw [ControlNode.reception_fresh, hreg.accepted_payloads, hemit]
    rfl
  have hstep := ControlNode.step_normal hcheck
  rw [hfresh] at hstep
  have hactuator : l'.lastActuator = r.2.2 :=
    hsame.lastActuator.trans (congrArg (fun s => s.2.actuator) hstep)
  have hbus : (l.work cfg (UInt64.ofNat k) scheduledUs startUs).bus =
      ((l.bus.recvUntil (scheduledUs + cfg.periodUs)).1.send
        (commandFrame l.node.txSeq (Scalar.toI16 r.2.2) statusOk)).1 :=
    l.work_send cfg _ scheduledUs startUs (congrArg (fun s => s.2.commandFrame) hstep)
  rw [hnode, stepped, hstep]
  refine ⟨⟨rfl, rfl, rfl⟩, hactuator, ?_⟩
  rw [hsame.bus, hbus, SimBus.send_command, (recv_bus l.bus _).1]

/-- A cycle of a node with the tuning, given what the filter makes of the reading: an output near
the setpoint is not limited, and the plant hears it up to the error of the cast. -/
theorem tuned_next (h : Forward cfg clock) (seed : UInt64) {k : Nat} (hk : k < cfg.cycles.toNat)
    (hemits : ∀ j ≤ k, faults.Emits j) (value integral : ℚ) :
    let l : RunState ℚ (SimBus ℚ) := after (SimBus.new seed faults) cfg clock hogWindow k
    let l' : RunState ℚ (SimBus ℚ) := after (SimBus.new seed faults) cfg clock hogWindow (k + 1)
    let output := 0.6 * (500 - value) + 4 * (integral + (500 - value) * 0.010)
    l.node.setpoint = 500 →
    l.node.filter.update (Scalar.ofI16 (l.bus.reading l.bus.noise.2)) = ⟨0.3, value, true⟩ →
    l.node.pi = ⟨0.6, 4, -1000, 1000, integral⟩ → |output - 500| ≤ 183 →
    (l'.Tuned ∧ l'.node.filter.y = value ∧ l'.lastActuator = output) ∧
      ∃ command, |command| ≤ 1 ∧
        l'.bus.plant = l.bus.plant + 0.05 * (output - command - l.bus.plant) := by
  intro l l' output hsetpoint hfilter hpi hnear
  obtain ⟨hlower, hupper⟩ := abs_le.mp hnear
  have hcontrol : l.node.control (some (Scalar.ofI16 (l.bus.reading l.bus.noise.2))) =
      (⟨0.3, value, true⟩, ⟨0.6, 4, -1000, 1000, integral + (500 - value) * 0.010⟩, output) := by
    have hupdate : l.node.pi.update l.node.setpoint value =
        (⟨0.6, 4, -1000, 1000, integral + (500 - value) * 0.010⟩, output) := by
      rw [hpi, hsetpoint]
      apply Pi.update_integrates
      · show (-1000 : ℚ) ≤ output
        linarith
      · show output ≤ (1000 : ℚ)
        linarith
    simp only [ControlNode.control, hfilter, LowPass.value, hupdate]
  obtain ⟨⟨hsetpoint', hfilter', hpi'⟩, hactuator, hplant⟩ :=
    controlled_next (F := ℚ) hogWindow h seed hk hemits
  change l'.node.setpoint = l.node.setpoint at hsetpoint'
  change l'.node.filter = (l.node.control (some _)).1 at hfilter'
  change l'.node.pi = (l.node.control (some _)).2.1 at hpi'
  change l'.lastActuator = (l.node.control (some _)).2.2 at hactuator
  rw [hcontrol] at hfilter' hpi' hactuator
  have hvalue : l'.node.filter.y = value := by rw [hfilter']
  refine ⟨⟨⟨hsetpoint'.trans hsetpoint, ?_, ?_, ?_⟩, hvalue, hactuator⟩,
    output - Scalar.ofI16 (Scalar.toI16 output), ?_, ?_⟩
  · rw [hvalue, hfilter']
  · rw [hpi']
  · rw [hactuator, hvalue, hpi']
  · apply abs_sub_cast_le
    rw [abs_le]
    constructor
    · linarith
    · linarith
  · have hgain : (plantGain : ℚ) = 0.05 := rfl
    rw [sub_sub_cancel, ← hgain]
    refine hplant.trans ?_
    rw [show (l.node.control (some _)).2.2 = output from congrArg (fun r => r.2.2) hcontrol]

/-- The filter of a fresh node. -/
theorem new_filter_eq : (LowPass.new filterAlpha : LowPass ℚ) = ⟨0.3, 0, false⟩ := by
  have halpha : Scalar.clamp (0.30 : ℚ) (1 / 2 ^ 126) 1 = 0.30 :=
    Pi.clamp_eq (by norm_num) (by norm_num)
  show (⟨Scalar.clamp (0.30 : ℚ) (1 / 2 ^ 126) 1, 0, false⟩ : LowPass ℚ) = _
  rw [halpha]
  norm_num

/-- The first cycle adopts the first reading. -/
theorem tuned_first (h : Forward cfg clock) (seed : UInt64) (hk : 0 < cfg.cycles.toNat)
    (hemits : faults.Emits 0) :
    let l : RunState ℚ (SimBus ℚ) := after (SimBus.new seed faults) cfg clock hogWindow (0 + 1)
    l.Tuned ∧ Regulation.outputForm l.deviation ≤ 16700 ∧
      Regulation.plantForm l.deviation ≤ 316000 := by
  intro l
  let first : RunState ℚ (SimBus ℚ) := after (SimBus.new seed faults) cfg clock hogWindow 0
  have hrest : (after (SimBus.new seed faults) cfg clock hogWindow 0 :
      RunState ℚ (SimBus ℚ)).bus.plant = 0 := rfl
  have hfresh : first.node.filter = ⟨0.3, 0, false⟩ := new_filter_eq
  have hreading := SimBus.abs_reading_sub_le
    (regulated_after (F := ℚ) seed faults cfg clock hogWindow 0).1.plant
  rw [hrest, sub_zero] at hreading
  change |Scalar.ofI16 (first.bus.reading first.bus.noise.2)| ≤ 3 at hreading
  generalize hread : (Scalar.ofI16 (first.bus.reading first.bus.noise.2) : ℚ) = value at hreading
  obtain ⟨hlow, hhigh⟩ := abs_le.mp hreading
  have hfilter : first.node.filter.update (Scalar.ofI16 (first.bus.reading first.bus.noise.2)) =
      ⟨0.3, value, true⟩ := by
    rw [hread, hfresh]
    rfl
  obtain ⟨⟨htuned, hvalue, hactuator⟩, command, hcommand, hplant⟩ :=
    tuned_next hogWindow h seed hk (fun j hj => by rwa [Nat.le_zero.mp hj]) value 0
      Loop.setpoint_eq hfilter Loop.pi_new_eq
      (by rw [abs_le]; constructor <;> linarith)
  rw [hrest] at hplant
  have hdeviation : l.deviation = Regulation.start value command := by
    have hbelow : 500 - l.bus.plant = 484 + 0.032 * value + 0.05 * command := by
      rw [hplant]
      ring
    have habove : l.lastActuator - 500 = -180 - 0.64 * value := by
      rw [hactuator]
      ring
    rw [deviation, hbelow, hvalue, habove, Regulation.start]
  rw [hdeviation]
  exact ⟨htuned, Regulation.output_form_start hreading hcommand,
    Regulation.plant_form_start hreading hcommand⟩

/-- A later cycle moves the filter towards the reading. -/
theorem tuned_step (h : Forward cfg clock) (seed : UInt64) {k : Nat} (hk : k < cfg.cycles.toNat)
    (hemits : ∀ j ≤ k, faults.Emits j) :
    let l : RunState ℚ (SimBus ℚ) := after (SimBus.new seed faults) cfg clock hogWindow k
    let l' : RunState ℚ (SimBus ℚ) := after (SimBus.new seed faults) cfg clock hogWindow (k + 1)
    l.Tuned → Regulation.outputForm l.deviation ≤ 16700 →
    l'.Tuned ∧ ∃ reading command, |reading| ≤ 3 ∧ |command| ≤ 1 ∧
      l'.deviation = Regulation.linear.mulVec l.deviation + Regulation.offset reading command := by
  intro l l' htuned hform
  have hreg := (regulated_after (F := ℚ) seed faults cfg clock hogWindow k).1
  have hreading := SimBus.abs_reading_sub_le hreg.plant
  generalize hread : (Scalar.ofI16 (l.bus.reading l.bus.noise.2) : ℚ) = value at hreading
  have hfilter : l.node.filter.update (Scalar.ofI16 (l.bus.reading l.bus.noise.2)) =
      ⟨0.3, l.node.filter.y + 0.3 * (value - l.node.filter.y), true⟩ := by
    rw [hread, htuned.filter]
    rfl
  -- without the error of the cast, which the output does not see yet
  have hnext := Regulation.output_form_step hreading (abs_zero.trans_le zero_le_one) l.deviation
  have hnear := Regulation.output_near (hnext.trans (by linarith))
  have houtput := htuned.output
  have hmove : 0.6 * (500 - (l.node.filter.y + 0.3 * (value - l.node.filter.y))) +
      4 * (l.node.pi.integral +
        (500 - (l.node.filter.y + 0.3 * (value - l.node.filter.y))) * 0.010) - 500 =
      (Regulation.linear.mulVec l.deviation + Regulation.offset (value - l.bus.plant) 0) 2 := by
    rw [Regulation.linear_apply]
    simp only [Pi.add_apply, Regulation.offset, deviation, Matrix.cons_val_zero,
      Matrix.cons_val_one, Matrix.cons_val, houtput]
    ring
  obtain ⟨⟨htuned', hvalue, hactuator⟩, command, hcommand, hplant⟩ :=
    tuned_next hogWindow h seed hk hemits _ _ htuned.setpoint hfilter htuned.pi
      (by rw [hmove]; exact hnear)
  refine ⟨htuned', value - l.bus.plant, command, hreading, hcommand, ?_⟩
  have hbelow : 500 - l'.bus.plant = 0.9404 * (500 - l.bus.plant) +
      0.0076 * (500 - l.node.filter.y) - 0.05 * (l.lastActuator - 500) +
      (0.0096 * (value - l.bus.plant) + 0.05 * command) := by
    rw [hplant, houtput]
    ring
  have hfiltered : 500 - l'.node.filter.y = 0.3 * (500 - l.bus.plant) +
      0.7 * (500 - l.node.filter.y) + -(0.3 * (value - l.bus.plant)) := by
    rw [hvalue]
    ring
  have habove : l'.lastActuator - 500 = 0.192 * (500 - l.bus.plant) -
      0.152 * (500 - l.node.filter.y) + (l.lastActuator - 500) +
      -(0.192 * (value - l.bus.plant)) := by
    rw [hactuator, houtput]
    ring
  rw [deviation, hbelow, hfiltered, habove, Regulation.linear_apply, Regulation.offset]
  simp [deviation]

/-- The output's form stays below its bound in a run that hears the sensor. -/
theorem tuned_after (h : Forward cfg clock) (seed : UInt64) {k : Nat} (hk : k < cfg.cycles.toNat)
    (hemits : ∀ j ≤ k, faults.Emits j) :
    let l : RunState ℚ (SimBus ℚ) := after (SimBus.new seed faults) cfg clock hogWindow (k + 1)
    l.Tuned ∧ Regulation.outputForm l.deviation ≤ 16700 := by
  induction k with
  | zero =>
      have hfirst := tuned_first hogWindow h seed hk (hemits 0 (Nat.le_refl 0))
      exact ⟨hfirst.1, hfirst.2.1⟩
  | succ k ih =>
      obtain ⟨htuned, hform⟩ := ih (Nat.lt_of_succ_lt hk)
        fun j hj => hemits j (Nat.le_succ_of_le hj)
      obtain ⟨htuned', reading, command, hreading, hcommand, hstep⟩ :=
        tuned_step hogWindow h seed hk hemits htuned hform
      refine ⟨htuned', ?_⟩
      have hnext := Regulation.output_form_step hreading hcommand
        (after (SimBus.new seed faults) cfg clock hogWindow (k + 1)).deviation
      rw [hstep]
      linarith

/-- The plant's form comes near its bound geometrically. -/
theorem plant_form_after (h : Forward cfg clock) (seed : UInt64) {k : Nat}
    (hk : k < cfg.cycles.toNat) (hemits : ∀ j ≤ k, faults.Emits j) :
    let l : RunState ℚ (SimBus ℚ) := after (SimBus.new seed faults) cfg clock hogWindow (k + 1)
    Regulation.plantForm l.deviation ≤ 50 + 0.97 ^ k * 316000 := by
  intro l
  have hfirst := (tuned_first hogWindow h seed (Nat.zero_lt_of_lt hk)
    (hemits 0 (Nat.zero_le k))).2.2
  have hdecay := iterate_le (by norm_num : (0 : ℚ) ≤ 0.97) 50
    (fun i => Regulation.plantForm (deviation
      (after (SimBus.new seed faults) cfg clock hogWindow (i + 1))))
    (fun i hi => ?_) (Nat.le_refl k)
  · refine hdecay.trans ?_
    have hpow : (0 : ℚ) ≤ 0.97 ^ k := by positivity
    have hgap := mul_le_mul_of_nonneg_left hfirst hpow
    linarith
  · have hearlier : i < cfg.cycles.toNat := hi.trans hk
    have hheard : ∀ j ≤ i + 1, faults.Emits j := fun j hj => hemits j (hj.trans hi)
    obtain ⟨htuned, hform⟩ := tuned_after hogWindow h seed hearlier
      fun j hj => hheard j (Nat.le_succ_of_le hj)
    obtain ⟨-, reading, command, hreading, hcommand, hstep⟩ :=
      tuned_step hogWindow h seed (Nat.lt_of_le_of_lt hi hk) hheard htuned hform
    show Regulation.plantForm (deviation _) ≤ _
    rw [hstep]
    exact Regulation.plant_form_step hreading hcommand _

end RunState

/-- The node regulates the simulated plant. In a run that has heard the sensor in every cycle so
far, with noise on the readings and the command cut to a whole number, no output is further than 183
from the setpoint, so none is limited, and after four hundred cycles the plant stays within seven
units of the setpoint. -/
theorem node_regulates (faults : FaultSchedule) {cfg : RunConfig} {clock : Clock}
    (h : RunState.Forward cfg clock) (hogWindow : Option HogWindow) (seed : UInt64) {k : Nat}
    (hk : k < cfg.cycles.toNat) (hemits : ∀ j ≤ k, faults.Emits j) :
    let l : RunState ℚ (SimBus ℚ) :=
      RunState.after (SimBus.new seed faults) cfg clock hogWindow (k + 1)
    |l.lastActuator - setpoint| ≤ 183 ∧ (400 ≤ k → |l.bus.plant - setpoint| < 7) := by
  intro l
  have hnear := Regulation.output_near (RunState.tuned_after hogWindow h seed hk hemits).2
  have hplant := RunState.plant_form_after hogWindow h seed hk hemits
  rw [RunState.deviation_output] at hnear
  rw [Loop.setpoint_eq]
  refine ⟨hnear, fun hlate => ?_⟩
  have hcoordinate := (Regulation.sq_le_plant_form _).trans hplant
  rw [RunState.deviation_plant] at hcoordinate
  change 1.06 * (500 - l.bus.plant) ^ 2 ≤ _ at hcoordinate
  have hsmall : (0.97 : ℚ) ^ k < 6 / 10 ^ 6 :=
    calc (0.97 : ℚ) ^ k ≤ 0.97 ^ 400 := pow_le_pow_of_le_one (by norm_num) (by norm_num) hlate
      _ = (0.97 ^ 20) ^ 20 := pow_mul _ 20 20
      _ ≤ 0.544 ^ 20 := pow_le_pow_left₀ (by norm_num) (by norm_num) 20
      _ < 6 / 10 ^ 6 := by norm_num
  rw [abs_sub_comm]
  apply abs_lt_of_sq_lt_sq _ (by norm_num)
  linarith

/-- A thousand cycles in virtual time, with corrupted and repeated frames on the bus. -/
theorem node_regulates_corrupted :
    let faults := { FaultSchedule.clean with badCrc := {3, 500}, duplicate := {700} }
    let l : RunState ℚ (SimBus ℚ) :=
      RunState.after (SimBus.new 7 faults) ⟨1000, 10000, 50000, .virtual⟩ ⟨fun _ => 0, id⟩ none
        (999 + 1)
    |l.bus.plant - setpoint| < 7 := by
  intro faults
  have hvirtual : RunState.Virtual ⟨1000, 10000, 50000, .virtual⟩ :=
    ⟨rfl, by decide, by decide⟩
  exact (node_regulates faults (hvirtual.forward ⟨fun _ => 0, id⟩) none 7 (by decide)
    fun _ _ => rfl).2 (by decide)

end Fieldbus
