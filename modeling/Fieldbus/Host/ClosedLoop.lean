import Fieldbus.Host.Faults
import Fieldbus.Host.Runner

/-!
# The closed loop stays in range

The plant never leaves the actuator limits, so the sensor never reads a value the validator would
refuse, and the number the sensor sends next is always the one the validator expects. `Regulated`
is this invariant of a run of `ControlNode` against `SimBus`, and `regulated_after` says that it
holds after any number of cycles, whatever the faults, the clock and the watchdog do.
-/

namespace Fieldbus

open J1939
open FiniteScalar (val)

variable {F : Type} [Scalar F] [FiniteScalar F]

/-- A value between the actuator limits. -/
def WithinLimits (x : F) : Prop :=
  ((-1000 : ℤ) : ℚ) ≤ val x ∧ val x ≤ ((1000 : ℤ) : ℚ)

/-! ## The plant -/

namespace SimBus

/-- The measurement error is a whole number of at most two units. -/
theorem noise_mem (rng : UInt64) :
    ∃ level : ℤ, -2 ≤ level ∧ level ≤ 2 ∧ val (noiseOf rng : F) = level := by
  have hsmall : ((rng >>> 33) % 5).toNat < 5 := by
    rw [UInt64.toNat_mod]
    exact Nat.mod_lt _ (by decide)
  generalize hlevel : ((rng >>> 33) % 5).toNat = level at hsmall
  refine ⟨level - 2, by omega, by omega, ?_⟩
  have hread : val (Scalar.ofRat (level : ℚ) : F) = level := by
    have := FiniteScalar.val_of_int (F := F) (n := level) (abs_le.mpr ⟨by omega, by omega⟩)
    simpa using this
  have htwo : val (Scalar.ofRat 2 : F) = 2 := by
    simpa using FiniteScalar.val_of_int (F := F) (n := 2) (by norm_num)
  -- both operands and the difference are small integers, so nothing is rounded
  have hexact := Rounding.int_fixed (FiniteScalar.rounding F) (level - 2 : ℤ)
    (abs_le.mpr ⟨by omega, by omega⟩)
  rw [noiseOf, hlevel, FiniteScalar.val_sub, hread, htwo]
  simpa using hexact

variable {b : SimBus F}

/-- A sensor on a plant within the limits reads a value the validator accepts. -/
theorem reading_in_range (h : WithinLimits b.plant) :
    checkRange (b.reading b.noise.2) = .ok () := by
  obtain ⟨level, hlower, hupper, hlevel⟩ := noise_mem (F := F) (nextRng b.rng)
  have hsum : val (b.plant + b.noise.2) =
      (FiniteScalar.rounding F).round (val b.plant + level) := by
    rw [FiniteScalar.val_add, ← hlevel]
    rfl
  have hlow : ((-1002 : ℤ) : ℚ) ≤ val (b.plant + b.noise.2) := by
    rw [hsum]
    refine Rounding.le_round (by norm_num) ?_
    have hle : ((-1000 + -2 : ℤ) : ℚ) ≤ val b.plant + level := by
      rw [Int.cast_add]
      exact add_le_add h.1 (Int.cast_le.mpr hlower)
    simpa using hle
  have hhigh : val (b.plant + b.noise.2) ≤ ((1002 : ℤ) : ℚ) := by
    rw [hsum]
    refine Rounding.round_le (by norm_num) ?_
    have hle : val b.plant + level ≤ ((1000 + 2 : ℤ) : ℚ) := by
      rw [Int.cast_add]
      exact add_le_add h.2 (Int.cast_le.mpr hupper)
    simpa using hle
  obtain ⟨hmin, hmax⟩ := truncI16_mem (by norm_num) (by norm_num) ⟨hlow, hhigh⟩
  rw [reading, check_range_ok_iff, FiniteScalar.toI16_eq]
  have hvalueMin : valueMin.toInt = -10000 := rfl
  have hvalueMax : valueMax.toInt = 10000 := rfl
  constructor
  · rw [Int16.le_iff_toInt_le]
    omega
  · rw [Int16.le_iff_toInt_le]
    omega

/-- A command within the limits keeps the plant within them. -/
theorem send_within_limits (h : WithinLimits b.plant) (seq status : UInt8) {value : Int16}
    (hvalue : -1000 ≤ value.toInt ∧ value.toInt ≤ 1000) :
    WithinLimits (b.send (commandFrame seq value status)).1.plant := by
  -- a gain that rounds to at most a quarter moves the plant towards the command, not past it
  have hgain : 0 ≤ val (plantGain : F) ∧ val (plantGain : F) ≤ 1 / 4 := by
    rw [plantGain, FiniteScalar.val_ofRat]
    refine ⟨Rounding.round_nonneg (by norm_num), ?_⟩
    exact (Rounding.round_le_two_mul (by norm_num)).trans (by norm_num)
  have hplant : val (b.send (commandFrame seq value status)).1.plant =
      (FiniteScalar.rounding F).round (val b.plant + (FiniteScalar.rounding F).round
        (val (plantGain : F) * (FiniteScalar.rounding F).round (value.toInt - val b.plant))) := by
    rw [send_command, FiniteScalar.val_add, FiniteScalar.val_mul, FiniteScalar.val_sub,
      FiniteScalar.val_of_i16]
  rw [WithinLimits, hplant]
  exact ⟨Rounding.le_relax (by norm_num) hgain.1 hgain.2 h.1 (Int.cast_le.mpr hvalue.1),
    Rounding.relax_le (by norm_num) hgain.1 hgain.2 h.2 (Int.cast_le.mpr hvalue.2)⟩

end SimBus

/-! ## The controller -/

/-- A controller with the node's actuator limits. -/
structure Limited (c : Pi F) : Prop where
  lower : c.outMin = outMin
  upper : c.outMax = outMax

omit [FiniteScalar F] in
theorem Limited.update {c : Pi F} (h : Limited c) (setpoint measurement : F) :
    Limited (c.update setpoint measurement).1 :=
  ⟨by simp [h.lower], by simp [h.upper]⟩

theorem val_out_min : val (outMin : F) = ((-1000 : ℤ) : ℚ) := by
  rw [outMin, ← FiniteScalar.val_of_int (F := F) (n := -1000) (by norm_num)]
  norm_num

theorem val_out_max : val (outMax : F) = ((1000 : ℤ) : ℚ) := by
  rw [outMax, ← FiniteScalar.val_of_int (F := F) (n := 1000) (by norm_num)]
  norm_num

/-- A new controller has the limits in the order they were given. -/
theorem limited_new : Limited (Pi.new kp ki outMin outMax : Pi F) := by
  have hle : (outMin : F) ≤ outMax := by
    rw [FiniteScalar.le_iff, val_out_min, val_out_max]
    norm_num
  exact ⟨by simp [Pi.new, hle], by simp [Pi.new, hle]⟩

/-- The output of a limited controller is within the limits. -/
theorem Limited.output {c : Pi F} (h : Limited c) (setpoint measurement : F) :
    WithinLimits (c.update setpoint measurement).2 := by
  obtain ⟨x, hx⟩ := c.update_output setpoint measurement
  rw [hx, h.lower, h.upper, WithinLimits, ← val_out_min (F := F), ← val_out_max (F := F)]
  refine FiniteScalar.val_clamp_mem ?_
  rw [val_out_min, val_out_max]
  norm_num

/-- A value within the limits is cast without saturation, to a value within the limits. -/
theorem WithinLimits.quantised {x : F} (h : WithinLimits x) :
    (Scalar.toI16 x).toInt = truncate (val x) ∧
      -1000 ≤ (Scalar.toI16 x).toInt ∧ (Scalar.toI16 x).toInt ≤ 1000 := by
  rw [FiniteScalar.toI16_eq]
  exact ⟨truncI16_toInt (by norm_num) (by norm_num) h, truncI16_mem (by norm_num) (by norm_num) h⟩

/-- Zero is within the limits. -/
theorem within_limits_zero : WithinLimits (Scalar.ofRat 0 : F) := by
  have hzero : val (Scalar.ofRat 0 : F) = 0 := by
    rw [FiniteScalar.val_ofRat, Rounding.round_zero]
  rw [WithinLimits, hzero]
  norm_num

/-- Every step keeps the limits and commands a value within them. -/
theorem ControlNode.step_limited {n : ControlNode F} (h : Limited n.pi) (nowUs : UInt64)
    (received : List Frame) :
    Limited (n.step nowUs received).1.pi ∧ WithinLimits (n.step nowUs received).2.actuator := by
  cases hcheck : ((n.reception nowUs received).watchdog.check nowUs).2 with
  | some s =>
      rw [step_safe hcheck]
      exact ⟨h, within_limits_zero⟩
  | none =>
      rw [step_normal hcheck]
      exact ⟨h.update _ _, h.output _ _⟩

/-! ## The loop -/

namespace RunState

variable {cfg : RunConfig} {clock : Clock} {hogWindow : Option HogWindow}

/-- The invariant of the closed loop. -/
structure Regulated (l : RunState F (SimBus F)) : Prop where
  plant : WithinLimits l.bus.plant
  limited : Limited l.node.pi
  sequence : checkSequence l.node.validator.lastSeq l.bus.seq = .ok ()

/-- The frames a cycle receives. -/
def received (l : RunState F (SimBus F)) (deadlineUs : UInt64) : List Frame :=
  (l.bus.recvUntil deadlineUs).2

/-- The step of a cycle. -/
def stepped (l : RunState F (SimBus F)) (deadlineUs startUs : UInt64) :
    ControlNode F × StepOutput F :=
  l.node.step startUs (l.received deadlineUs)

/-- The payload of the legitimate frame of a cycle. -/
def goodPayload (l : RunState F (SimBus F)) : Payload :=
  ⟨l.bus.seq, l.bus.reading l.bus.noise.2, statusOk⟩

/-- The validator after a cycle: untouched by silence, else one acceptance and the refusals of the
injected frames. -/
def validatorAfter (l : RunState F (SimBus F)) : Validator :=
  if l.bus.faults.silent l.bus.cycle then l.node.validator
  else (l.node.validator.accept l.goodPayload).refuseAll
    (l.bus.faults.reasons l.bus.cycle l.bus.seq)

variable {l : RunState F (SimBus F)}

/-- A cycle that emits delivers one frame the validator accepts, followed by frames it refuses. -/
theorem Regulated.emission (h : Regulated l) (hemit : l.bus.faults.silent l.bus.cycle = false)
    (deadlineUs : UInt64) :
    l.node.validator.validateAll (l.received deadlineUs) = l.validatorAfter ∧
      l.node.validator.acceptedFrames (l.received deadlineUs) = [l.bus.goodFrame] ∧
      Machine.trace Validator.validate l.node.validator (l.received deadlineUs) =
        .ok l.goodPayload :: (l.bus.faults.reasons l.bus.cycle l.bus.seq).map .error := by
  have hverdicts := FaultSchedule.emission_verdicts l.bus.faults l.bus.cycle h.sequence
    (SimBus.reading_in_range h.plant)
  rw [received, SimBus.recv_emitted hemit, validatorAfter, hemit]
  exact hverdicts

/-- The validator after the frames of a cycle. -/
theorem Regulated.validate_received (h : Regulated l) (deadlineUs : UInt64) :
    l.node.validator.validateAll (l.received deadlineUs) = l.validatorAfter := by
  cases hemit : l.bus.faults.silent l.bus.cycle with
  | false => exact (h.emission hemit deadlineUs).1
  | true => rw [received, SimBus.recv_silent hemit, validatorAfter, hemit]; rfl

omit [FiniteScalar F] in
/-- What the bus keeps or advances when it delivers the frames of a cycle. -/
theorem recv_bus (b : SimBus F) (deadlineUs : UInt64) :
    (b.recvUntil deadlineUs).1.plant = b.plant ∧
      (b.recvUntil deadlineUs).1.cycle = b.cycle + 1 ∧
      (b.recvUntil deadlineUs).1.faults = b.faults ∧
      (b.recvUntil deadlineUs).1.seq =
        if b.faults.silent b.cycle then b.seq else b.seq + 1 := by
  cases hemit : b.faults.silent b.cycle with
  | false => simp [SimBus.recv_emitted hemit]
  | true => simp [SimBus.recv_silent hemit]

/-- The validator after a cycle expects the number the sensor sends next. -/
theorem Regulated.sequence_after (h : Regulated l) (deadlineUs : UInt64) :
    checkSequence l.validatorAfter.lastSeq (l.bus.recvUntil deadlineUs).1.seq = .ok () := by
  obtain ⟨-, -, -, hseq⟩ := recv_bus l.bus deadlineUs
  rw [hseq, validatorAfter]
  cases hemit : l.bus.faults.silent l.bus.cycle with
  | false => simp [check_sequence_ok_iff, goodPayload]
  | true => simpa using h.sequence

/-- The work of a cycle: the step's command drives the bus the frames came from. -/
theorem work_bus (h : Limited l.node.pi) (cfg : RunConfig) (cycle scheduledUs startUs : UInt64) :
    ∃ value status,
      (l.stepped (scheduledUs + cfg.periodUs) startUs).2.commandFrame =
        some (commandFrame l.node.txSeq value status) ∧
      (-1000 ≤ value.toInt ∧ value.toInt ≤ 1000) ∧
      (l.work cfg cycle scheduledUs startUs).bus =
        ((l.bus.recvUntil (scheduledUs + cfg.periodUs)).1.send
          (commandFrame l.node.txSeq value status)).1 := by
  obtain ⟨-, hactuator⟩ :=
    ControlNode.step_limited h startUs (l.received (scheduledUs + cfg.periodUs))
  exact ⟨_, _, ControlNode.step_command, hactuator.quantised.2,
    l.work_send cfg cycle scheduledUs startUs ControlNode.step_command⟩

/-- The work of a cycle keeps the invariant, counts the cycle, and leaves the validator where the
frames of the cycle took it. -/
theorem Regulated.work (h : Regulated l) (cfg : RunConfig) (cycle scheduledUs startUs : UInt64) :
    let l' := l.work cfg cycle scheduledUs startUs
    Regulated l' ∧ l'.bus.cycle = l.bus.cycle + 1 ∧ l'.bus.faults = l.bus.faults ∧
      l'.node.validator = l.validatorAfter ∧ l'.accepted = l.validatorAfter.accepted := by
  intro l'
  obtain ⟨value, status, -, hvalue, hbus⟩ := work_bus h.limited cfg cycle scheduledUs startUs
  obtain ⟨hplant, hcycle, hfaults, -⟩ := recv_bus l.bus (scheduledUs + cfg.periodUs)
  have hvalidator : l'.node.validator = l.validatorAfter :=
    (ControlNode.reception_validator l.node startUs (l.received _)).trans
      (h.validate_received (scheduledUs + cfg.periodUs))
  -- transmitting a command moves only the plant and the count of sent frames
  have hseq : l'.bus.seq = (l.bus.recvUntil (scheduledUs + cfg.periodUs)).1.seq := by
    rw [hbus, SimBus.send_command]
  refine ⟨⟨?_, (ControlNode.step_limited h.limited _ _).1, ?_⟩, ?_, ?_, hvalidator, ?_⟩
  · rw [hbus]
    exact SimBus.send_within_limits (by rw [hplant]; exact h.plant) _ _ hvalue
  · rw [hvalidator, hseq]
    exact h.sequence_after _
  · rw [hbus, SimBus.send_command, hcycle]
  · rw [hbus, SimBus.send_command, hfaults]
  · rw [← hvalidator]
    rfl

/-- The same for a whole cycle. -/
theorem Regulated.next (h : Regulated l) (cfg : RunConfig) (clock : Clock)
    (hogWindow : Option HogWindow) (cycle : UInt64) :
    let l' := l.next cfg clock hogWindow cycle
    Regulated l' ∧ l'.bus.cycle = l.bus.cycle + 1 ∧ l'.bus.faults = l.bus.faults ∧
      l'.node.validator = l.validatorAfter ∧ l'.accepted = l.validatorAfter.accepted := by
  intro l'
  have hsame : SameControl l' _ := same_control_next cycle
  obtain ⟨hwork, hcycle, hfaults, hvalidator, haccepted⟩ :=
    h.work cfg cycle (scheduled cfg cycle) (started cfg clock cycle)
  rw [hsame.bus, hsame.node, hsame.accepted]
  exact ⟨⟨by rw [hsame.bus]; exact hwork.plant, by rw [hsame.node]; exact hwork.limited,
    by rw [hsame.bus, hsame.node]; exact hwork.sequence⟩, hcycle, hfaults, hvalidator, haccepted⟩

/-- The invariant holds after any number of cycles, which the bus has counted. -/
theorem regulated_after (seed : UInt64) (faults : FaultSchedule) (cfg : RunConfig) (clock : Clock)
    (hogWindow : Option HogWindow) (cycles : Nat) :
    let l : RunState F (SimBus F) := after (SimBus.new seed faults) cfg clock hogWindow cycles
    Regulated l ∧ l.bus.cycle = UInt64.ofNat cycles ∧ l.bus.faults = faults := by
  induction cycles with
  | zero =>
      exact ⟨⟨within_limits_zero, limited_new, rfl⟩, rfl, rfl⟩
  | succ cycles ih =>
      obtain ⟨hreg, hcycle, hfaults⟩ := ih
      obtain ⟨hnext, hcycle', hfaults', -⟩ :=
        hreg.next cfg clock hogWindow (UInt64.ofNat cycles)
      rw [after]
      exact ⟨hnext, by rw [hcycle', hcycle, UInt64.ofNat_add]; rfl, hfaults'.trans hfaults⟩

end RunState

end Fieldbus
