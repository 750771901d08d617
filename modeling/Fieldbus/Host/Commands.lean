import Fieldbus.Host.ClosedLoop

/-!
# The command stream

Every step of a node emits one command. `WellFormed` is what the frame of the step with a given
index must be, `Commanded` is the step's own account of it, and `command_stream_well_formed` says
that every step of every run emits such a frame and that the simulated bus obeys it.
-/

namespace Fieldbus

open J1939
open FiniteScalar (val)

variable {F : Type} [Scalar F] [FiniteScalar F]

namespace ControlNode

/-- The outputs of the steps of a run; a reset has none. -/
def outputs (n : ControlNode F) (inputs : List Input) : List (StepOutput F) :=
  (Machine.trace stepInput n inputs).filterMap id

omit [FiniteScalar F] in
@[simp] theorem outputs_step (n : ControlNode F) (nowUs : UInt64) (received : List Frame)
    (rest : List Input) :
    n.outputs (.step nowUs received :: rest) =
      (n.step nowUs received).2 :: (n.step nowUs received).1.outputs rest := rfl

omit [FiniteScalar F] in
@[simp] theorem outputs_reset (n : ControlNode F) (nowUs : UInt64) (rest : List Input) :
    n.outputs (.reset nowUs :: rest) = (n.reset nowUs).outputs rest := rfl

/-- The status byte a step sends. -/
def statusOf (out : StepOutput F) : UInt8 :=
  if out.safeState.isSome then statusSafe else statusOk

/-- A step that sent the command with the given number for an actuator value within the limits. -/
structure Commanded (seq : UInt8) (out : StepOutput F) : Prop where
  emitted : out.commandFrame = some (commandFrame seq (Scalar.toI16 out.actuator) (statusOf out))
  limits : WithinLimits out.actuator

/-- Every step commands its own number and leaves the next one behind. -/
theorem step_commanded {n : ControlNode F} (h : Limited n.pi) (nowUs : UInt64)
    (received : List Frame) :
    Commanded n.txSeq (n.step nowUs received).2 ∧ Limited (n.step nowUs received).1.pi ∧
      (n.step nowUs received).1.txSeq = n.txSeq + 1 := by
  obtain ⟨hnext, hlimits⟩ := step_limited h nowUs received
  exact ⟨⟨step_command, hlimits⟩, hnext, rfl⟩

/-- The numbers of a run count its steps. -/
theorem run_commanded {n : ControlNode F} (h : Limited n.pi) (inputs : List Input) {k : Nat}
    {out : StepOutput F} (hout : (n.outputs inputs)[k]? = some out) :
    Commanded (n.txSeq + UInt8.ofNat k) out := by
  induction inputs generalizing n k with
  | nil => simp [outputs] at hout
  | cons input rest ih =>
      cases input with
      -- a reset clears the integral and touches neither the limits nor the number
      | reset nowUs => exact ih (n := n.reset nowUs) ⟨h.lower, h.upper⟩ hout
      | step nowUs received =>
          obtain ⟨hcommand, hnext, hseq⟩ := step_commanded h nowUs received
          cases k with
          | zero =>
              obtain rfl : (n.step nowUs received).2 = out := by simpa using hout
              simpa using hcommand
          | succ k =>
              have hrest := ih hnext (by simpa using hout)
              rw [hseq, UInt8.add_assoc] at hrest
              rwa [Nat.add_comm, UInt8.ofNat_add]

/-- The command of the step with the given index: eight bytes of the command group from this
controller, with a valid CRC and zero reserved bytes, numbered modulo 256, with the status of the
step's safe state and the actuator truncated toward zero within the limits. -/
structure WellFormed (index : Nat) (out : StepOutput F) (frame : Frame) : Prop where
  emitted : out.commandFrame = some frame
  length : frame.dlc = 8
  group : (Id.unpack frame.id).pgn = pgnCommand
  source : (Id.unpack frame.id).sourceAddress = saController
  crc : frame.data.get 7 = crc8J1850 (frame.data.toList.take 7)
  reserved : frame.data.get 4 = 0 ∧ frame.data.get 5 = 0 ∧ frame.data.get 6 = 0
  seq : (Payload.decode frame.data).seq.toNat = index % 256
  status : (Payload.decode frame.data).status = statusSafe ↔ out.safeState.isSome
  value : (Payload.decode frame.data).value.toInt = truncate (val out.actuator)
  lower : val (outMin : F) ≤ ((Payload.decode frame.data).value.toInt : ℚ)
  upper : ((Payload.decode frame.data).value.toInt : ℚ) ≤ val (outMax : F)

/-- What a commanded step sent is well formed. -/
theorem Commanded.wellFormed {index : Nat} {out : StepOutput F}
    (h : Commanded (UInt8.ofNat index) out) :
    WellFormed index out
      (commandFrame (UInt8.ofNat index) (Scalar.toI16 out.actuator) (statusOf out)) := by
  obtain ⟨hvalue, hlower, hupper⟩ := h.limits.quantised
  have hdecode : Payload.decode (commandFrame (UInt8.ofNat index) (Scalar.toI16 out.actuator)
      (statusOf out)).data = ⟨UInt8.ofNat index, Scalar.toI16 out.actuator, statusOf out⟩ :=
    Payload.decode_encode _
  have hgroup : (Id.unpack (Id.fromPgn priority pgnCommand saController).pack).pgn =
      pgnCommand := by decide
  have hsource : (Id.unpack (Id.fromPgn priority pgnCommand saController).pack).sourceAddress =
      saController := by decide
  refine ⟨h.emitted, rfl, hgroup, hsource, Payload.encode_crc _, ⟨rfl, rfl, rfl⟩, ?_, ?_,
    ?_, ?_, ?_⟩
  · rw [hdecode]
    exact UInt8.toNat_ofNat'
  · rw [hdecode]
    simp only [statusOf]
    cases out.safeState <;> simp [statusSafe, statusOk]
  · rw [hdecode]
    exact hvalue
  · rw [hdecode, val_out_min]
    exact Int.cast_le.mpr hlower
  · rw [hdecode, val_out_max]
    exact Int.cast_le.mpr hupper

end ControlNode

/-! ## The receiving plant -/

namespace SimBus

/-- Transmit the commands of a run, one after the other. -/
def sendAll (b : SimBus F) (outputs : List (StepOutput F)) : SimBus F :=
  (outputs.filterMap StepOutput.commandFrame).foldl (fun b frame => (b.send frame).1) b

/-- The commands of a run keep the plant within the limits. -/
theorem send_all_within_limits {outputs : List (StepOutput F)}
    (h : ∀ out ∈ outputs, ∃ seq, ControlNode.Commanded seq out) {b : SimBus F}
    (hplant : WithinLimits b.plant) : WithinLimits (b.sendAll outputs).plant := by
  induction outputs generalizing b with
  | nil => exact hplant
  | cons out rest ih =>
      obtain ⟨seq, hout⟩ := h out (List.mem_cons_self ..)
      rw [sendAll, List.filterMap_cons_some hout.emitted, List.foldl_cons]
      exact ih (fun out hmem => h out (List.mem_cons_of_mem _ hmem))
        (send_within_limits hplant _ _ hout.limits.quantised.2)

end SimBus

/-- The command stream is well formed in every run. The step with index `n` of a run of steps and
resets sends one frame, as `WellFormed` has it; the simulated bus accepts it, drives its plant by
the value the frame carries and keeps the plant within the actuator limits, over one command and
over all commands of the run. -/
theorem command_stream_well_formed (startUs timeoutUs : UInt64)
    (inputs : List ControlNode.Input) :
    let outputs : List (StepOutput F) :=
      (ControlNode.withWatchdogTimeout startUs timeoutUs).outputs inputs
    (∀ n out, outputs[n]? = some out → ∃ frame, ControlNode.WellFormed n out frame ∧
      ∀ b : SimBus F,
        b.send frame =
            ({ b with
                plant := b.plant +
                  plantGain * (Scalar.ofI16 (Payload.decode frame.data).value - b.plant)
                sent := b.sent + 1 }, .ok ()) ∧
          (WithinLimits b.plant → WithinLimits (b.send frame).1.plant)) ∧
    ∀ b : SimBus F, WithinLimits b.plant → WithinLimits (b.sendAll outputs).plant := by
  intro outputs
  have hcommanded : ∀ n out, outputs[n]? = some out →
      ControlNode.Commanded (UInt8.ofNat n) out := by
    intro n out hout
    have hrun := ControlNode.run_commanded (F := F)
      (n := ControlNode.withWatchdogTimeout startUs timeoutUs) limited_new inputs hout
    rwa [show (ControlNode.withWatchdogTimeout startUs timeoutUs : ControlNode F).txSeq = 0
      from rfl, UInt8.zero_add] at hrun
  refine ⟨fun n out hout => ?_, fun b hplant => ?_⟩
  · have hcommand := hcommanded n out hout
    refine ⟨_, hcommand.wellFormed, fun b => ⟨?_, fun hplant => ?_⟩⟩
    · have hvalue := Payload.decode_encode
        ⟨UInt8.ofNat n, Scalar.toI16 out.actuator, ControlNode.statusOf out⟩
      rw [SimBus.send_command, commandFrame, hvalue]
    · exact SimBus.send_within_limits hplant _ _ hcommand.limits.quantised.2
  · refine SimBus.send_all_within_limits (fun out hmem => ?_) hplant
    obtain ⟨n, hout⟩ := List.getElem?_of_mem hmem
    exact ⟨_, hcommanded n out hout⟩

/-- The second command of a node that receives one reading carries number 1, and the bus counts
it. -/
theorem command_stream_well_formed_second :
    let first := (ControlNode.new 0 : ControlNode ℚ).step 10000 [sensorFrame 0 400 statusOk]
    ∃ frame, (first.1.step 20000 []).2.commandFrame = some frame ∧
      (Payload.decode frame.data).seq.toNat = 1 ∧
      ((SimBus.new 7 .clean : SimBus ℚ).send frame).1.sent = 1 := by
  intro first
  obtain ⟨hstream, -⟩ := command_stream_well_formed (F := ℚ) 0 watchdogTimeoutUs
    [.step 10000 [sensorFrame 0 400 statusOk], .step 20000 []]
  have hsecond := hstream 1 (first.1.step 20000 []).2
  rw [ControlNode.outputs_step, ControlNode.outputs_step] at hsecond
  obtain ⟨frame, hframe, hbus⟩ := hsecond rfl
  exact ⟨frame, hframe.emitted, hframe.seq, by rw [(hbus _).1]; rfl⟩

end Fieldbus
