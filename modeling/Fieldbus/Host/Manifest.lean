import Mathlib.Data.Finset.Dedup
import Fieldbus.Host.Hog
import Fieldbus.Host.Report

/-!
# The frozen manifest

After `host/src/manifest.rs`, with the thread policies of `host/src/runner.rs` that it names. The
verdicts read a part of it (`FrozenManifest.verdicts`); the other fields are the parameters of a run
and the mechanism of each control.
-/

namespace Fieldbus

/-! ## Thread policies -/

/-- Which scheduling policy a thread asks the operating system for. -/
inductive ThreadPolicy where
  | timeConstraint
  | defaultTimeshare
  deriving DecidableEq, Repr

namespace ThreadPolicy

/-- The stable name used in the manifest and in the results. -/
def asStr : ThreadPolicy → String
  | .timeConstraint => "mach-time-constraint"
  | .defaultTimeshare => "default-timeshare"

/-- Parse a policy name; an unknown one is an error rather than a fallback. -/
def fromManifest (name : String) : Except String ThreadPolicy :=
  if name = "mach-time-constraint" then .ok .timeConstraint
  else if name = "default-timeshare" then .ok .defaultTimeshare
  else .error ("manifest names an unknown thread policy " ++ debugText name ++
    "; this binary implements \"mach-time-constraint\" and \"default-timeshare\"")

/-- The names of the policies are those that parse. -/
theorem from_manifest_eq_ok_iff {name : String} {policy : ThreadPolicy} :
    fromManifest name = .ok policy ↔ name = policy.asStr := by
  unfold fromManifest
  split
  · rename_i h
    subst h
    cases policy <;> simp [asStr]
  split
  · rename_i h
    subst h
    cases policy <;> simp [asStr]
  · cases policy <;> simp_all [asStr]

end ThreadPolicy

namespace Report

/-! ## The manifest file -/

/-- Frozen loop parameters. -/
structure LoopSpec where
  targetPeriodUs : UInt64
  cycles : UInt64
  seed : UInt64

/-- The frozen watchdog parameters. -/
structure WatchdogSpec where
  timeoutUs : UInt64

/-- The fixed cycles at which each kind of fault is injected. -/
structure InjectionCycles where
  badCrc : List UInt64
  duplicate : List UInt64
  outOfOrder : List UInt64
  outOfRange : List UInt64
  badLength : List UInt64

/-- The schedule that lists these cycles. -/
def InjectionCycles.schedule (c : InjectionCycles) : FaultSchedule :=
  { FaultSchedule.clean with
    badCrc := c.badCrc.toFinset
    duplicate := c.duplicate.toFinset
    outOfOrder := c.outOfOrder.toFinset
    outOfRange := c.outOfRange.toFinset
    badLength := c.badLength.toFinset }

/-- One negative control: its expectations, and the mechanism that the host reads. -/
structure FrozenControl extends NegativeControl where
  injectionCycles : Option InjectionCycles
  controlThreadPolicy : Option String
  hogThreadPolicy : Option String

/-- The subset of the manifest that the host acts on. -/
structure FrozenManifest where
  loop : LoopSpec
  watchdog : WatchdogSpec
  positiveGate : PositiveGate
  negativeControls : List FrozenControl

namespace FrozenManifest

/-- The part that the verdicts read. -/
def verdicts (m : FrozenManifest) : Manifest where
  positiveGate := m.positiveGate
  negativeControls := m.negativeControls.map FrozenControl.toNegativeControl

/-- The negative control with the given `id`. -/
def control (m : FrozenManifest) (id : String) : Except String FrozenControl :=
  match m.negativeControls.find? fun c => c.id == id with
  | some c => .ok c
  | none => .error ("manifest has no negative control with id " ++ debugText id)

/-- The verdicts find the same control, and fail with the same message. -/
theorem verdicts_control (m : FrozenManifest) (id : String) :
    m.verdicts.control id = (m.control id).map FrozenControl.toNegativeControl := by
  rw [Manifest.control, verdicts, control, List.find?_map]
  have hsame : (fun c : NegativeControl => c.id == id) ∘ FrozenControl.toNegativeControl =
      fun c : FrozenControl => c.id == id := rfl
  rw [hsame]
  cases m.negativeControls.find? fun c => c.id == id with
  | some c => rfl
  | none => rfl

/-- A control that is found bears the `id` asked for. -/
theorem control_id {m : FrozenManifest} {id : String} {c : FrozenControl}
    (h : m.control id = .ok c) : c.id = id := by
  unfold control at h
  split at h
  · rename_i found hfound
    cases h
    simpa using List.find?_some hfound
  · cases h

end FrozenManifest

/-! ## What is frozen -/

/-- What `manifest/frozen.json` says. -/
def frozenManifest : FrozenManifest where
  loop := ⟨10000, 10000, 20260909⟩
  watchdog := ⟨80000⟩
  positiveGate := ⟨0, 1000, 0, false⟩
  negativeControls := [
    { id := "cpu-hog"
      injectionCycles := none
      expectedRejectedTotal := none
      expectedRejectedByReason := none
      expectedAccepted := none
      controlThreadPolicy := some "default-timeshare"
      hogThreadPolicy := some "mach-time-constraint"
      freezeAtCycle := none
      maxReactionTimeUs := none },
    { id := "can-corrupt"
      injectionCycles := some ⟨[1000, 2000, 3000, 4000, 5000], [1200, 2200, 3200, 4200, 5200],
        [1400, 2400, 3400, 4400, 5400], [1600, 3600, 5600], [1800, 3800]⟩
      expectedRejectedTotal := some 20
      expectedRejectedByReason := some (.ofList ([("bad_length", 2), ("unknown_pgn", 0),
        ("unexpected_source", 0), ("bad_crc", 5), ("bad_reserved", 0), ("duplicate", 5),
        ("out_of_order", 5), ("out_of_range", 3)] : List (String × UInt32)))
      expectedAccepted := some 10000
      controlThreadPolicy := none
      hogThreadPolicy := none
      freezeAtCycle := none
      maxReactionTimeUs := none },
    { id := "sensor-freeze"
      injectionCycles := none
      expectedRejectedTotal := none
      expectedRejectedByReason := none
      expectedAccepted := none
      controlThreadPolicy := none
      hogThreadPolicy := none
      freezeAtCycle := some 5000
      maxReactionTimeUs := some 100000 }]

end Report

end Fieldbus
