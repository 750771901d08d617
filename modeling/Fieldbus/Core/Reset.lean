import Fieldbus.Core.Noninterference

/-!
# A reset node is a new node

`Configured` says that a node still has the constants it was built with, so that a reset node is a
new one but for its command number and its counters. `ShiftedNode` relates such a pair; every step
and every reset keeps it, and `reset_is_fresh` is what this says about outputs, verdicts and
counters of all later runs.
-/

namespace Fieldbus

open J1939

/-- How far one node is ahead of another in its command number and its counters. -/
structure Offset where
  command : UInt8
  accepted : UInt32
  rejected : UInt32
  byReason : Fin 8 → UInt32

namespace J1939.Validator

/-- The validator `w` has the position of `v` and has counted the offset more. -/
structure Shifted (offset : Offset) (v w : Validator) : Prop where
  lastSeq : w.lastSeq = v.lastSeq
  accepted : w.accepted = v.accepted + offset.accepted
  rejected : w.rejected = v.rejected + offset.rejected
  byReason : ∀ i, w.byReason.get i = v.byReason.get i + offset.byReason i

variable {offset : Offset} {v w : Validator}

/-- Adding to a shifted counter shifts the sum. -/
theorem add_shift (a b c : UInt32) : a + b + c = a + c + b := by
  rw [UInt32.add_assoc, UInt32.add_comm b c, UInt32.add_assoc]

theorem Shifted.accept (h : Shifted offset v w) (p : Payload) :
    Shifted offset (v.accept p) (w.accept p) := by
  refine ⟨rfl, ?_, h.rejected, h.byReason⟩
  rw [accept_accepted, accept_accepted, h.accepted, add_shift]

theorem Shifted.refuse (h : Shifted offset v w) (r : Reject) :
    Shifted offset (v.refuse r) (w.refuse r) := by
  refine ⟨h.lastSeq, h.accepted, ?_, fun i => ?_⟩
  · show w.rejected + 1 = v.rejected + 1 + offset.rejected
    rw [h.rejected, add_shift]
  · rw [refuse_by_reason, refuse_by_reason, h.byReason, add_shift]

theorem Shifted.resetSequence (h : Shifted offset v w) :
    Shifted offset v.resetSequence w.resetSequence :=
  ⟨rfl, h.accepted, h.rejected, h.byReason⟩

/-- Both validators give the same verdict and stay shifted. -/
theorem Shifted.verdict (h : Shifted offset v w) (frame : Frame) :
    Shifted offset (v.validate frame).1 (w.validate frame).1 ∧
      (v.validate frame).2 = (w.validate frame).2 := by
  have hsame := classify_congr h.lastSeq frame
  rcases validate_cases v frame with ⟨p, hok, hvalidate⟩ | ⟨r, herror, hvalidate⟩
  · rw [hvalidate, validate_ok (hsame.trans hok)]
    exact ⟨h.accept p, rfl⟩
  · rw [hvalidate, validate_error (hsame.trans herror)]
    exact ⟨h.refuse r, rfl⟩

/-- The same for a list of frames. -/
theorem Shifted.frames (h : Shifted offset v w) (frames : List Frame) :
    Shifted offset (v.validateAll frames) (w.validateAll frames) ∧
      Machine.trace validate w frames = Machine.trace validate v frames := by
  have hstep : ∀ (left right : Validator) (frame : Frame), Shifted offset left right →
      Shifted offset (left.validate frame).1 (right.validate frame).1 ∧
        (left.validate frame).2 = (right.validate frame).2 :=
    fun _ _ frame h => h.verdict frame
  obtain ⟨hfinal, htrace⟩ := Machine.lockstep hstep h frames
  rw [List.forall₂_eq_eq_eq] at htrace
  exact ⟨hfinal, htrace.symm⟩

end J1939.Validator

variable {F : Type} [Scalar F]

namespace ControlNode

/-! ## The constants of a node -/

/-- A node with the gains, limits, smoothing factor and setpoint it was built with, and the given
staleness budget. -/
structure Configured (timeoutUs : UInt64) (n : ControlNode F) : Prop where
  alpha : n.filter.alpha = (LowPass.new filterAlpha : LowPass F).alpha
  pi : n.pi = { (Pi.new kp ki outMin outMax : Pi F) with integral := n.pi.integral }
  timeout : n.watchdog.timeoutUs = timeoutUs
  setpoint : n.setpoint = Fieldbus.setpoint

theorem configured_new (startUs timeoutUs : UInt64) :
    Configured timeoutUs (withWatchdogTimeout startUs timeoutUs : ControlNode F) :=
  ⟨rfl, rfl, rfl, rfl⟩

variable {n m : ControlNode F} {timeoutUs : UInt64} {offset : Offset}

theorem Configured.reset (h : Configured timeoutUs n) (nowUs : UInt64) :
    Configured timeoutUs (n.reset nowUs) := by
  refine ⟨h.alpha, ?_, h.timeout, h.setpoint⟩
  show n.pi.reset = _
  rw [Pi.reset, h.pi]
  rfl

/-- A step moves none of the constants. -/
theorem Configured.step (h : Configured timeoutUs n) (nowUs : UInt64) (received : List Frame) :
    Configured timeoutUs (n.step nowUs received).1 := by
  have htimeout : (n.step nowUs received).1.watchdog.timeoutUs = timeoutUs := by
    rw [step_watchdog, Watchdog.check_timeout, reception_timeout]
    exact h.timeout
  cases hcheck : ((n.reception nowUs received).watchdog.check nowUs).2 with
  | some s =>
      rw [step_safe hcheck] at htimeout ⊢
      exact ⟨h.alpha, h.pi, htimeout, h.setpoint⟩
  | none =>
      rw [step_normal hcheck] at htimeout ⊢
      refine ⟨?_, ?_, htimeout, h.setpoint⟩
      · show (n.control _).1.alpha = _
        rw [control_alpha]
        exact h.alpha
      · show (n.control _).2.1 = _
        rw [control_pi, h.pi]

/-- Every node of a run is configured as it was built. -/
theorem configured_run (startUs timeoutUs : UInt64) (inputs : List Input) :
    Configured timeoutUs
      (Machine.final stepInput (withWatchdogTimeout startUs timeoutUs : ControlNode F) inputs) := by
  refine Machine.final_invariant (Configured timeoutUs) (fun n input h => ?_)
    (configured_new startUs timeoutUs) inputs
  cases input with
  | step nowUs received => exact h.step nowUs received
  | reset nowUs => exact h.reset nowUs

/-- A configured node that is reset is a new node but for its validator's counters and its command
number. -/
theorem Configured.reset_eq (h : Configured timeoutUs n) (nowUs : UInt64) :
    n.reset nowUs = { (withWatchdogTimeout nowUs timeoutUs : ControlNode F) with
      validator := n.validator.resetSequence, txSeq := n.txSeq } := by
  have hpi : n.pi.reset = Pi.new kp ki outMin outMax := by
    rw [Pi.reset, h.pi]
    rfl
  have hfilter : n.filter.reset = LowPass.new filterAlpha := by
    rw [LowPass.reset, h.alpha]
    rfl
  have hwatchdog : n.watchdog.reset nowUs = Watchdog.new timeoutUs nowUs := by
    rw [Watchdog.reset, Watchdog.new, h.timeout]
  simp only [ControlNode.reset, withWatchdogTimeout, hpi, hfilter, hwatchdog, h.setpoint]

/-! ## Nodes that differ by an offset -/

/-- The node `m` is the node `n` with its command number and its counters ahead by the offset. -/
structure ShiftedNode (offset : Offset) (n m : ControlNode F) : Prop where
  validator : Validator.Shifted offset n.validator m.validator
  txSeq : m.txSeq = n.txSeq + offset.command
  rest : m = { n with validator := m.validator, txSeq := m.txSeq }

/-- The output `b` is the output `a` with the command number and the counters ahead by the
offset. -/
structure ShiftedOutput (offset : Offset) (a b : StepOutput F) : Prop where
  command : ∃ seq value status, a.commandFrame = some (commandFrame seq value status) ∧
    b.commandFrame = some (commandFrame (seq + offset.command) value status)
  actuator : b.actuator = a.actuator
  safeState : b.safeState = a.safeState
  accepted : b.accepted = a.accepted + offset.accepted
  rejected : b.rejected = a.rejected + offset.rejected

/-- The reports agree on the output up to the offset and on every verdict. -/
structure ShiftedReport (offset : Offset)
    (a b : Option (StepOutput F) × List (Except Reject Payload)) : Prop where
  output : Option.Rel (ShiftedOutput offset) a.1 b.1
  verdicts : b.2 = a.2

/-- The receive loop leaves the same watchdog and the same fresh value. -/
theorem ShiftedNode.reception (h : ShiftedNode offset n m) (nowUs : UInt64)
    (received : List Frame) :
    (m.reception nowUs received).watchdog = (n.reception nowUs received).watchdog ∧
      (m.reception nowUs received).fresh = (n.reception nowUs received).fresh := by
  have hwatchdog : m.watchdog = n.watchdog := by rw [h.rest]
  have hpayloads : m.validator.acceptedPayloads received =
      n.validator.acceptedPayloads received := by
    rw [Validator.acceptedPayloads, (h.validator.frames received).2, Validator.acceptedPayloads]
  rw [reception_watchdog, reception_watchdog, reception_fresh, reception_fresh, hpayloads,
    hwatchdog]
  exact ⟨rfl, rfl⟩

/-- One step of both nodes. -/
theorem ShiftedNode.step (h : ShiftedNode offset n m) (nowUs : UInt64) (received : List Frame) :
    ShiftedNode offset (n.step nowUs received).1 (m.step nowUs received).1 ∧
      ShiftedOutput offset (n.step nowUs received).2 (m.step nowUs received).2 := by
  obtain ⟨hwatchdog, hfresh⟩ := h.reception nowUs received
  obtain ⟨hvalidator, -⟩ := h.validator.frames received
  have hfilter : m.filter = n.filter := by rw [h.rest]
  have hpi : m.pi = n.pi := by rw [h.rest]
  have hsetpoint : m.setpoint = n.setpoint := by rw [h.rest]
  have hseq : n.txSeq + offset.command + 1 = n.txSeq + 1 + offset.command := by
    rw [UInt8.add_assoc, UInt8.add_comm offset.command, UInt8.add_assoc]
  refine ⟨⟨?_, ?_, ?_⟩, ⟨?_, ?_, ?_, ?_, ?_⟩⟩
  · simpa [ControlNode.step] using hvalidator
  · simp only [ControlNode.step, h.txSeq, hseq]
  · simp only [ControlNode.step, hwatchdog, hfresh, hfilter, hpi, hsetpoint]
  · simp only [ControlNode.step, hwatchdog, hfresh, hfilter, hpi, hsetpoint, h.txSeq]
    exact ⟨_, _, _, rfl, rfl⟩
  · simp only [ControlNode.step, hwatchdog, hfresh, hfilter, hpi, hsetpoint]
  · simp only [ControlNode.step, hwatchdog]
  · simpa [ControlNode.step] using hvalidator.accepted
  · simpa [ControlNode.step] using hvalidator.rejected

/-- One input of both nodes. -/
theorem ShiftedNode.observe (h : ShiftedNode offset n m) (input : Input) :
    ShiftedNode offset (n.observe input).1 (m.observe input).1 ∧
      ShiftedReport offset (n.observe input).2 (m.observe input).2 := by
  cases input with
  | step nowUs received =>
      obtain ⟨hnode, hout⟩ := h.step nowUs received
      exact ⟨hnode, .some hout, (h.validator.frames received).2⟩
  | reset nowUs =>
      refine ⟨⟨h.validator.resetSequence, h.txSeq, ?_⟩, .none, rfl⟩
      show m.reset nowUs = { n.reset nowUs with
        validator := (m.reset nowUs).validator, txSeq := (m.reset nowUs).txSeq }
      rw [h.rest]
      rfl

/-- A reset node is a new node. After any history of steps and resets, the node that is reset and a
new node with the same budget produce, on every later sequence of steps and resets, the same
actuator values, safe states and verdicts and commands with the same value and status; the command
numbers differ by a constant modulo 256 and each counter by a constant. -/
theorem reset_is_fresh (startUs timeoutUs nowUs : UInt64) (before : List Input) :
    let n : ControlNode F := Machine.final stepInput (withWatchdogTimeout startUs timeoutUs) before
    let fresh : ControlNode F := withWatchdogTimeout nowUs timeoutUs
    ∃ offset, ∀ later : List Input,
      ShiftedNode offset (Machine.final stepInput fresh later)
          (Machine.final stepInput (n.reset nowUs) later) ∧
        List.Forall₂ (ShiftedReport offset) (Machine.trace observe fresh later)
          (Machine.trace observe (n.reset nowUs) later) := by
  intro n fresh
  have hstep : ∀ (offset : Offset) (left right : ControlNode F) (input : Input),
      ShiftedNode offset left right →
      ShiftedNode offset (left.observe input).1 (right.observe input).1 ∧
        ShiftedReport offset (left.observe input).2 (right.observe input).2 :=
    fun _ _ _ input h => h.observe input
  have hreset := (configured_run startUs timeoutUs before : Configured timeoutUs n).reset_eq nowUs
  have hshifted : ShiftedNode ⟨n.txSeq, n.validator.accepted, n.validator.rejected,
      n.validator.byReason.get⟩ fresh (n.reset nowUs) := by
    rw [hreset]
    refine ⟨⟨rfl, ?_, ?_, fun i => ?_⟩, ?_, rfl⟩
    · exact (UInt32.zero_add _).symm
    · exact (UInt32.zero_add _).symm
    · have hzero : fresh.validator.byReason.get i = 0 := by
        show (Vector.replicate 8 (0 : UInt32))[(i : Nat)] = 0
        simp
      rw [hzero, UInt32.zero_add]
      rfl
    · exact (UInt8.zero_add _).symm
  exact ⟨_, Machine.lockstep (hstep _) hshifted⟩

end ControlNode

end Fieldbus
