import Fieldbus.Core.Node

/-!
# The latched node

Nothing on the bus clears a safe state. `Latched.step` says what a step of a latched node does,
whatever frames and timestamp it is given, and `Latched.run` what any number of them do.
-/

namespace Fieldbus.ControlNode

open J1939

variable {F : Type} [Scalar F]

/-- The output of a step that found the safe state `s` latched and sent number `seq`. -/
structure SafeOutput (s : Watchdog.SafeState) (out : StepOutput F) : Prop where
  safeState : out.safeState = some s
  actuator : out.actuator = safeActuator
  command : ∃ seq, out.commandFrame = some (commandFrame seq 0 statusSafe)

/-- A node latched in `s` whose filter and controller are those given. -/
structure Latched (s : Watchdog.SafeState) (filter : LowPass F) (pi : Pi F)
    (n : ControlNode F) : Prop where
  latch : n.safeState = some s
  filter : n.filter = filter
  pi : n.pi = pi

variable {n : ControlNode F} {nowUs : UInt64} {received : List Frame}
  {s : Watchdog.SafeState} {filter : LowPass F} {pi : Pi F}

/-- A step whose check finds a safe state leaves it latched, does not touch the filter and the
controller, and commands the safe actuator value. -/
theorem step_latches (h : ((n.reception nowUs received).watchdog.check nowUs).2 = some s) :
    Latched s n.filter n.pi (n.step nowUs received).1 ∧ SafeOutput s (n.step nowUs received).2 := by
  have hlatch : (n.step nowUs received).1.safeState = some s := by
    rw [← step_output_latch, step_safe_state, h]
  rw [step_safe h] at hlatch ⊢
  exact ⟨⟨hlatch, rfl, rfl⟩, ⟨rfl, rfl, _, rfl⟩⟩

/-- A step of a latched node keeps the latch, the filter and the controller, and commands the safe
actuator value. -/
theorem Latched.step (h : Latched s filter pi n) (nowUs : UInt64) (received : List Frame) :
    Latched s filter pi (n.step nowUs received).1 ∧ SafeOutput s (n.step nowUs received).2 := by
  have hlatch : (n.reception nowUs received).watchdog.latched = some s := by
    rw [reception_latched]
    exact h.latch
  obtain ⟨hnext, hout⟩ := step_latches (congrArg Prod.snd (Watchdog.check_latched hlatch nowUs))
  exact ⟨⟨hnext.latch, hnext.filter.trans h.filter, hnext.pi.trans h.pi⟩, hout⟩

/-- Any number of steps of a latched node. -/
theorem Latched.run (h : Latched s filter pi n) (inputs : List (UInt64 × List Frame)) :
    (∀ out ∈ Machine.trace (fun n i => ControlNode.step n i.1 i.2) n inputs, SafeOutput s out) ∧
      Latched s filter pi (Machine.final (fun n i => ControlNode.step n i.1 i.2) n inputs) :=
  ⟨Machine.trace_invariant (Latched s filter pi) (SafeOutput s) (fun _ _ hn => hn.step _ _) h
      inputs,
    Machine.final_invariant (Latched s filter pi) (fun _ _ hn => (hn.step _ _).1) h inputs⟩

/-- A step that reports no safe state sends its command with the normal status. -/
theorem unlatched_command (h : (n.step nowUs received).2.safeState = none) :
    ∃ value, (n.step nowUs received).2.commandFrame =
      some (commandFrame n.txSeq value statusOk) := by
  rw [step_normal h]
  exact ⟨_, rfl⟩

end Fieldbus.ControlNode
