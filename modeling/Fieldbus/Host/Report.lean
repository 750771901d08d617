import Fieldbus.Core.Telemetry
import Fieldbus.Library.DebugText
import Fieldbus.Host.Runner
import Std.Data.ExtTreeMap

/-!
# Gates and verdicts

After `host/src/manifest.rs` and the verdict functions of `host/src/report.rs`: what the frozen
manifest expects of a run, the positive gate that every run is put through, and the verdicts on the
`can-corrupt` and `sensor-freeze` controls. A verdict is the conjunction of its checks.
-/

namespace Fieldbus.Report

open Std (ExtTreeMap)
open J1939

/-! ## The manifest -/

/-- The conditions a positive run must satisfy. -/
structure PositiveGate where
  missedDeadlinesMax : UInt64
  p99JitterUsMax : UInt64
  rejectedFramesMax : UInt32
  watchdogMayTrip : Bool

/-- One negative control's expectations; each control states those that concern it. -/
structure NegativeControl where
  id : String
  expectedRejectedTotal : Option UInt32
  expectedRejectedByReason : Option (ExtTreeMap String UInt32)
  expectedAccepted : Option UInt32
  freezeAtCycle : Option UInt64
  maxReactionTimeUs : Option UInt64

/-- The part of the manifest that the verdicts read. -/
structure Manifest where
  positiveGate : PositiveGate
  negativeControls : List NegativeControl

/-- The negative control with the given `id`. -/
def Manifest.control (m : Manifest) (id : String) : Except String NegativeControl :=
  match m.negativeControls.find? fun c => c.id == id with
  | some c => .ok c
  | none => .error ("manifest has no negative control with id " ++ debugText id)

/-! ## Checks -/

/-- One named condition and whether it held. -/
structure Check where
  name : String
  expected : String
  observed : String
  passed : Bool

/-- The positive gate's verdict on one run. -/
structure GateReport where
  checks : List Check
  pass : Bool

/-- A verdict from a list of checks. -/
def GateReport.fromChecks (checks : List Check) : GateReport :=
  ⟨checks, checks.all Check.passed⟩

/-- A negative control's verdict. -/
structure ControlReport where
  id : String
  expected : String
  caughtChecks : List Check
  caught : Bool
  note : String

variable {F : Type}

/-- Evaluates the four frozen positive-gate conditions against a run. -/
def evaluatePositiveGate (outcome : RunOutcome F) (manifest : Manifest) : GateReport :=
  let g := manifest.positiveGate
  let misses := outcome.jitter.missedDeadlines
  let p99 := outcome.jitter.p99Us
  let tripped := outcome.safeState.isSome
  .fromChecks [
    { name := "missed_deadlines"
      expected := s!"<= {g.missedDeadlinesMax}"
      observed := toString misses
      passed := misses ≤ g.missedDeadlinesMax },
    { name := "p99_jitter_us"
      expected := s!"<= {g.p99JitterUsMax}"
      observed := toString p99
      passed := p99 ≤ g.p99JitterUsMax },
    { name := "rejected_frames"
      expected := s!"<= {g.rejectedFramesMax}"
      observed := toString outcome.rejected
      passed := outcome.rejected ≤ g.rejectedFramesMax },
    { name := "watchdog_tripped"
      expected := toString g.watchdogMayTrip
      observed := toString tripped
      passed := g.watchdogMayTrip || !tripped }]

/-! ## The `can-corrupt` control -/

/-- The index of the reason with the given name. -/
def reasonIndex (name : String) : Option (Fin 8) :=
  (List.finRange 8).find? fun i : Fin 8 => Reject.name i == name

/-- The check of one listed reason. -/
def reasonCheck (outcome : RunOutcome F) (name : String) (want : UInt32) : Check :=
  let got := (reasonIndex name).map outcome.rejectedByReason.get
  { name := "rejected_by_reason." ++ name
    expected := s!"== {want}"
    observed := match got with
      | some v => toString v
      | none => "no such reason in this build"
    passed := got == some want }

/-- The conditions that the manifest attaches to `can-corrupt`; an expectation it does not state
makes no check. -/
def canCorruptChecks (gate : GateReport) (outcome : RunOutcome F) (spec : NegativeControl) :
    List Check :=
  (spec.expectedRejectedTotal.toList.map fun total =>
    { name := "rejected_total"
      expected := s!"== {total}"
      observed := toString outcome.rejected
      passed := outcome.rejected == total }) ++
  (spec.expectedRejectedByReason.toList.flatMap fun expected =>
    expected.toList.map fun entry => reasonCheck outcome entry.1 entry.2) ++
  (spec.expectedAccepted.toList.map fun acc =>
    { name := "accepted"
      expected := s!"== {acc}"
      observed := toString outcome.accepted
      passed := outcome.accepted == acc }) ++
  [{ name := "positive_gate_fails"
     expected := "false (rejected == 0 must not hold)"
     observed := s!"gate pass = {gate.pass}"
     passed := !gate.pass }]

/-- Evaluates whether the `can-corrupt` control was caught. -/
def evaluateCanCorrupt (gate : GateReport) (outcome : RunOutcome F) (spec : NegativeControl) :
    ControlReport :=
  let checks := canCorruptChecks gate outcome spec
  let caught := checks.all Check.passed
  { id := "can-corrupt"
    expected := "every injected fault is rejected under its intended reason, no legitimate " ++
      "frame is rejected, and the positive gate's rejected == 0 condition therefore fails"
    caughtChecks := checks
    caught := caught
    note :=
      if caught then
        "Caught. The exact per-reason histogram matched, which shows the validator " ++
          "attributed each fault to the right cause rather than merely counting more refusals."
      else
        "NOT caught. The observed rejection histogram does not match the frozen " ++
          "expectation; see the failing checks." }

/-! ## The `sensor-freeze` control -/

/-- The difference of two counts as the source prints it, each cast to `i64`. -/
def margin (bound value : UInt64) : Int64 :=
  bound.toInt64 - value.toInt64

/-- The conditions that the manifest attaches to `sensor-freeze`; a bound it does not state is
`u64::MAX`. -/
def sensorFreezeChecks (gate : GateReport) (outcome : RunOutcome F) (spec : NegativeControl) :
    List Check :=
  let tripped := outcome.safeState.isSome
  let reason := (outcome.safeState.map Watchdog.SafeState.reasonName).getD "none"
  let reaction := outcome.safeState.map Watchdog.SafeState.timeSinceLastAcceptedUs
  let maxReaction := spec.maxReactionTimeUs.getD 0xFFFFFFFFFFFFFFFF
  [{ name := "watchdog_tripped"
     expected := "true"
     observed := toString tripped
     passed := tripped },
   { name := "watchdog_reason"
     expected := "sensor_stale"
     observed := reason
     passed := reason == "sensor_stale" },
   { name := "reaction_time_us"
     expected := s!"<= {maxReaction} (from the timestamp of the last accepted sensor frame to " ++
       "the latched safe state)"
     observed := match reaction with
       | some v => s!"{v}, margin {margin maxReaction v} us"
       | none => "never tripped"
     passed := (reaction.map fun v => decide (v ≤ maxReaction)).getD false },
   { name := "actuator_zero_since_trip"
     expected := "true"
     observed := toString outcome.actuatorZeroSinceTrip
     passed := tripped && outcome.actuatorZeroSinceTrip },
   { name := "safe_state_persists_to_end_of_run"
     expected := "true"
     observed := toString tripped
     passed := tripped },
   { name := "positive_gate_fails"
     expected := "false (the watchdog must not be allowed to trip)"
     observed := s!"gate pass = {gate.pass}"
     passed := !gate.pass }] ++
  spec.freezeAtCycle.toList.map fun c =>
    { name := "freeze_cycle_from_manifest"
      expected := s!"sensor stops at cycle {c}"
      observed := match outcome.tripCycle with
        | some t => s!"trip cycle Some({t})"
        | none => "trip cycle None"
      passed := (outcome.tripCycle.map fun t => decide (t > c)).getD false }

/-- Evaluates whether the `sensor-freeze` control was caught. -/
def evaluateSensorFreeze (gate : GateReport) (outcome : RunOutcome F) (spec : NegativeControl) :
    ControlReport :=
  let reaction := outcome.safeState.map Watchdog.SafeState.timeSinceLastAcceptedUs
  let maxReaction := spec.maxReactionTimeUs.getD 0xFFFFFFFFFFFFFFFF
  let checks := sensorFreezeChecks gate outcome spec
  let caught := checks.all Check.passed
  { id := "sensor-freeze"
    expected := "the safe state is entered within max_reaction_time_us of the last accepted " ++
      "sensor frame, the reason persists to the end of the run, the actuator is commanded to 0 " ++
      "from the trip onward, and the positive gate's watchdog condition therefore fails"
    caughtChecks := checks
    caught := caught
    note :=
      if caught then
        match reaction with
        | some v =>
            s!"Caught. The safe state was entered {v} us after the last accepted sensor frame, " ++
            s!"{margin maxReaction v} us inside the {maxReaction} us bound, and the latch held " ++
            "to the end of the run with the actuator commanded to the safe value throughout, " ++
            "so the safe state is a state and not a momentary log line."
        | none => "Caught."
      else "NOT caught. See the failing checks." }

end Fieldbus.Report
