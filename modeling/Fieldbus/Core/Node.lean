import Fieldbus.Core.Control
import Fieldbus.Core.Validation
import Fieldbus.Core.Watchdog

/-!
# The control node

After `core/src/node.rs`. One step validates the received frames in arrival order, checks the
watchdog, runs the control law unless a safe state is latched, and emits one command frame. The
node is a machine in the sense of `Fieldbus.Machine`, with steps and resets as inputs.
-/

namespace Fieldbus

open J1939

variable {F : Type} [Scalar F]

/-- Control setpoint in sensor engineering units. -/
def setpoint : F := Scalar.ofRat 500.0
/-- Low-pass smoothing factor on the sensor stream. -/
def filterAlpha : F := Scalar.ofRat 0.30
/-- Proportional gain. -/
def kp : F := Scalar.ofRat 0.60
/-- Integral gain, per second. -/
def ki : F := Scalar.ofRat 4.00
/-- Actuator command lower limit. -/
def outMin : F := Scalar.ofRat (-1000)
/-- Actuator command upper limit. -/
def outMax : F := Scalar.ofRat 1000
/-- Default staleness budget: eight control periods. -/
def watchdogTimeoutUs : UInt64 := 80000
/-- The actuator value commanded while a safe state is latched. -/
def safeActuator : F := Scalar.ofRat 0

/-- What one control period produced. -/
structure StepOutput (F : Type) where
  commandFrame : Option Frame
  actuator : F
  safeState : Option Watchdog.SafeState
  accepted : UInt32
  rejected : UInt32

/-- A periodic control node: validate, filter, control, watch, command. -/
structure ControlNode (F : Type) where
  validator : Validator
  filter : LowPass F
  pi : Pi F
  watchdog : Watchdog
  txSeq : UInt8
  setpoint : F

/-- The state of the receive loop of one step: what it updates and the latest accepted value. -/
structure Reception (F : Type) where
  validator : Validator
  watchdog : Watchdog
  fresh : Option F

namespace Reception

/-- One received frame: only an accepted one feeds the watchdog and becomes the fresh value. -/
def receive (nowUs : UInt64) (r : Reception F) (frame : Frame) : Reception F :=
  match r.validator.validate frame with
  | (validator, .ok payload) =>
      ⟨validator, r.watchdog.feed nowUs, some (Scalar.ofI16 payload.value)⟩
  | (validator, .error _) => { r with validator := validator }

/-- The receive loop over the frames of one step. -/
def receiveAll (nowUs : UInt64) (r : Reception F) (received : List Frame) : Reception F :=
  received.foldl (receive nowUs) r

end Reception

namespace ControlNode

/-- A node armed at `startUs` whose watchdog uses `timeoutUs`. -/
def withWatchdogTimeout (startUs timeoutUs : UInt64) : ControlNode F where
  validator := Validator.new
  filter := LowPass.new filterAlpha
  pi := Pi.new kp ki outMin outMax
  watchdog := Watchdog.new timeoutUs startUs
  txSeq := 0
  setpoint := Fieldbus.setpoint

/-- A node armed at `startUs` with the default staleness budget. -/
def new (startUs : UInt64) : ControlNode F :=
  withWatchdogTimeout startUs watchdogTimeoutUs

/-- The receive loop's result for a node. -/
def reception (n : ControlNode F) (nowUs : UInt64) (received : List Frame) : Reception F :=
  Reception.receiveAll nowUs ⟨n.validator, n.watchdog, none⟩ received

/-- Run one control period. -/
def step (n : ControlNode F) (nowUs : UInt64) (received : List Frame) :
    ControlNode F × StepOutput F :=
  let r := n.reception nowUs received
  -- a frame accepted in this step has already been fed
  let (watchdog, safeState) := r.watchdog.check nowUs
  let (filter, pi, actuator) :=
    if safeState.isSome then (n.filter, n.pi, safeActuator)
    else
      let filter := match r.fresh with
        | some v => n.filter.update v
        | none => n.filter
      let (pi, out) := n.pi.update n.setpoint filter.value
      (filter, pi, out)
  let status := if safeState.isSome then statusSafe else statusOk
  let quantised := Scalar.toI16 actuator
  let frame := commandFrame n.txSeq quantised status
  ({ n with
      validator := r.validator
      filter := filter
      pi := pi
      watchdog := watchdog
      txSeq := n.txSeq + 1 },
    ⟨some frame, actuator, safeState, r.validator.accepted, r.validator.rejected⟩)

/-- Clear a latched safe state and the control state behind it. -/
def reset (n : ControlNode F) (nowUs : UInt64) : ControlNode F :=
  { n with
    watchdog := n.watchdog.reset nowUs
    pi := n.pi.reset
    filter := n.filter.reset
    validator := n.validator.resetSequence }

/-- The latched safe state, if any. -/
def safeState (n : ControlNode F) : Option Watchdog.SafeState := n.watchdog.latched

/-- What a host can do to a node: step it with a time and frames, or reset it. -/
inductive Input where
  | step (nowUs : UInt64) (received : List Frame)
  | reset (nowUs : UInt64)

/-- One input; a reset produces no output. -/
def stepInput (n : ControlNode F) : Input → ControlNode F × Option (StepOutput F)
  | .step nowUs received => ((n.step nowUs received).1, some (n.step nowUs received).2)
  | .reset nowUs => (n.reset nowUs, none)

/-- The node states some history of steps and resets leads to. -/
def Reachable (n : ControlNode F) : Prop :=
  ∃ startUs timeoutUs inputs,
    n = Machine.final stepInput (withWatchdogTimeout startUs timeoutUs) inputs

/-! ## The receive loop

Each field of the result in terms of the frames the validator accepts. -/

end ControlNode

namespace Reception

variable {v : Validator} {frame : Frame} {p : Payload}

theorem receive_ok (nowUs : UInt64) (w : Watchdog) (fresh : Option F)
    (h : v.classify frame = .ok p) :
    receive nowUs ⟨v, w, fresh⟩ frame =
      ⟨v.accept p, w.feed nowUs, some (Scalar.ofI16 p.value)⟩ := by
  simp [receive, Validator.validate_ok h]

theorem receive_error {r : Reject} (nowUs : UInt64) (w : Watchdog) (fresh : Option F)
    (h : v.classify frame = .error r) :
    receive nowUs ⟨v, w, fresh⟩ frame = ⟨v.refuse r, w, fresh⟩ := by
  simp [receive, Validator.validate_error h]

/-- The receive loop runs the validator over the frames, feeds the watchdog if one was accepted and
keeps the value of the last accepted one. -/
theorem receive_all_eq (nowUs : UInt64) (v : Validator) (w : Watchdog) (fresh : Option F)
    (received : List Frame) :
    receiveAll nowUs ⟨v, w, fresh⟩ received =
      ⟨v.validateAll received,
        if v.acceptedPayloads received = [] then w else w.feed nowUs,
        ((v.acceptedPayloads received).getLast?.map
          (fun p => Scalar.ofI16 p.value)).or fresh⟩ := by
  induction received generalizing v w fresh with
  | nil => rfl
  | cons frame rest ih =>
      simp only [receiveAll, List.foldl_cons] at ih ⊢
      rcases Validator.validate_cases v frame with ⟨p, hok, -⟩ | ⟨r, herror, -⟩
      · rw [receive_ok nowUs w fresh hok, ih, Validator.validate_all_ok hok,
          Validator.accepted_payloads_ok hok]
        simp only [Reception.mk.injEq, true_and, List.cons_ne_nil, if_false, Watchdog.feed_feed,
          ite_self, List.getLast?_cons, Option.map_some, Option.some_or]
        -- a later accepted value overwrites this one, else this one is the last
        cases ((v.accept p).acceptedPayloads rest).getLast? <;> simp
      · rw [receive_error nowUs w fresh herror, ih, Validator.validate_all_error herror,
          Validator.accepted_payloads_error herror]

end Reception

namespace ControlNode

variable (n : ControlNode F) (nowUs : UInt64) (received : List Frame)

@[simp] theorem reception_validator :
    (n.reception nowUs received).validator = n.validator.validateAll received := by
  rw [reception, Reception.receive_all_eq]

theorem reception_watchdog :
    (n.reception nowUs received).watchdog =
      if n.validator.acceptedPayloads received = [] then n.watchdog
      else n.watchdog.feed nowUs := by
  rw [reception, Reception.receive_all_eq]

theorem reception_fresh :
    (n.reception nowUs received).fresh =
      (n.validator.acceptedPayloads received).getLast?.map
        (fun p => Scalar.ofI16 p.value) := by
  rw [reception, Reception.receive_all_eq, Option.or_none]

@[simp] theorem reception_latched :
    (n.reception nowUs received).watchdog.latched = n.watchdog.latched := by
  rw [reception_watchdog]
  split <;> simp

variable {n nowUs received} in
/-- A step that accepts nothing reaches its watchdog check with the watchdog as it was and no fresh
value. -/
theorem silent_reception (h : n.validator.acceptedPayloads received = []) :
    (n.reception nowUs received).watchdog = n.watchdog ∧
      (n.reception nowUs received).fresh = none := by
  rw [reception_watchdog, if_pos h, reception_fresh, h]
  exact ⟨rfl, rfl⟩

@[simp] theorem reception_timeout :
    (n.reception nowUs received).watchdog.timeoutUs = n.watchdog.timeoutUs := by
  rw [reception_watchdog]
  split <;> simp

/-! ## The two outcomes of a step

`step_safe` and `step_normal` say everything a step does when its watchdog check finds a safe state
and when it does not. -/

variable {n nowUs received}

/-- The control law on the value the receive loop left behind. -/
def control (n : ControlNode F) (fresh : Option F) : LowPass F × Pi F × F :=
  let filter := match fresh with
    | some v => n.filter.update v
    | none => n.filter
  let r := n.pi.update n.setpoint filter.value
  (filter, r.1, r.2)

/-- The control law moves nothing of the filter but its value. -/
theorem control_alpha (fresh : Option F) : (n.control fresh).1.alpha = n.filter.alpha := by
  cases fresh with
  | none => rfl
  | some v =>
      simp only [control, LowPass.update]
      split <;> rfl

/-- The control law moves nothing of the controller but its integral. -/
theorem control_pi (fresh : Option F) :
    (n.control fresh).2.1 = { n.pi with integral := (n.control fresh).2.1.integral } := by
  simp only [control]
  exact Pi.update_frame _ _ _

theorem step_safe {s : Watchdog.SafeState}
    (h : ((n.reception nowUs received).watchdog.check nowUs).2 = some s) :
    n.step nowUs received =
      ({ n with
          validator := (n.reception nowUs received).validator
          watchdog := ((n.reception nowUs received).watchdog.check nowUs).1
          txSeq := n.txSeq + 1 },
        ⟨some (commandFrame n.txSeq 0 statusSafe), safeActuator, some s,
          (n.reception nowUs received).validator.accepted,
          (n.reception nowUs received).validator.rejected⟩) := by
  -- the command carries the quantised actuator, which is a literal zero here
  have hzero : Scalar.toI16 (safeActuator : F) = 0 := Scalar.toI16_zero
  simp [step, h, hzero]

theorem step_normal (h : ((n.reception nowUs received).watchdog.check nowUs).2 = none) :
    n.step nowUs received =
      ({ n with
          validator := (n.reception nowUs received).validator
          filter := (n.control (n.reception nowUs received).fresh).1
          pi := (n.control (n.reception nowUs received).fresh).2.1
          watchdog := ((n.reception nowUs received).watchdog.check nowUs).1
          txSeq := n.txSeq + 1 },
        ⟨some (commandFrame n.txSeq
            (Scalar.toI16 (n.control (n.reception nowUs received).fresh).2.2) statusOk),
          (n.control (n.reception nowUs received).fresh).2.2, none,
          (n.reception nowUs received).validator.accepted,
          (n.reception nowUs received).validator.rejected⟩) := by
  simp [step, h, control]

/-- The command of a step carries the next number, the cast actuator value and the status of the
safe state. -/
theorem step_command :
    (n.step nowUs received).2.commandFrame =
      some (commandFrame n.txSeq (Scalar.toI16 (n.step nowUs received).2.actuator)
        (if (n.step nowUs received).2.safeState.isSome then statusSafe else statusOk)) := rfl

/-- The output's safe state is what the check returns. -/
theorem step_safe_state :
    (n.step nowUs received).2.safeState =
      ((n.reception nowUs received).watchdog.check nowUs).2 := rfl

theorem step_watchdog :
    (n.step nowUs received).1.watchdog =
      ((n.reception nowUs received).watchdog.check nowUs).1 := rfl

/-- The output's safe state is the latch the step leaves behind. -/
theorem step_output_latch :
    (n.step nowUs received).2.safeState = (n.step nowUs received).1.safeState := rfl

end ControlNode

end Fieldbus
