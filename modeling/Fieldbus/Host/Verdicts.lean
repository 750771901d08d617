import Fieldbus.Core.Percentiles
import Fieldbus.Host.Report

/-!
# What a verdict vouches for

The positive gate bounds the true p99 sample as long as that sample or the threshold lies below the
overflow bucket (`positive_gate_bounds`). The verdicts on `can-corrupt` and `sensor-freeze` check
what the manifest states; `verdicts_fail_closed_iff` says for which manifests that is enough.
-/

namespace Fieldbus.Report

open Std (ExtTreeMap)
open J1939 OrderStatistic

variable {F : Type} {outcome : RunOutcome F} {gate : GateReport} {spec : NegativeControl}

/-! ## The positive gate -/

/-- The gate passes when its four conditions hold. -/
theorem positive_gate_iff (outcome : RunOutcome F) (manifest : Manifest) :
    (evaluatePositiveGate outcome manifest).pass = true ↔
      outcome.jitter.missedDeadlines ≤ manifest.positiveGate.missedDeadlinesMax ∧
        outcome.jitter.p99Us ≤ manifest.positiveGate.p99JitterUsMax ∧
        outcome.rejected ≤ manifest.positiveGate.rejectedFramesMax ∧
        (manifest.positiveGate.watchdogMayTrip = true ∨ outcome.safeState = none) := by
  simp [evaluatePositiveGate, GateReport.fromChecks]

/-- The run recorded the given wake-jitter samples, next to any number of misses. -/
def Recorded (outcome : RunOutcome F) (samples : List UInt64) : Prop :=
  outcome.jitter =
    { JitterStats.recorded samples with missedDeadlines := outcome.jitter.missedDeadlines }

/-- The reported p99 is the edge of the bucket of the nearest-rank sample. -/
theorem Recorded.p99 {samples : List UInt64} (h : Recorded outcome samples) (hne : samples ≠ [])
    (hlength : samples.length < 2 ^ 32) :
    ∃ x, nearestRank (JitterStats.values samples) ((samples.length * 990) ⌈/⌉ 1000) = some x ∧
      outcome.jitter.p99Us = JitterStats.upperEdge (JitterStats.bucketOf x) := by
  obtain ⟨x, hx, hreport⟩ := JitterStats.percentile_eq hne hlength
    (show 0 < (990 : UInt32).toNat by decide) (show (990 : UInt32).toNat ≤ 1000 by decide)
  refine ⟨x, hx, ?_⟩
  rw [h]
  exact hreport

/-- A passing gate bounds misses, refusals and trips, and the true p99 sample unless sample and
threshold both reach the overflow bucket. -/
theorem positive_gate_bounds (manifest : Manifest) {samples : List UInt64}
    (hrecorded : Recorded outcome samples) (hne : samples ≠ [])
    (hlength : samples.length < 2 ^ 32)
    (hpass : (evaluatePositiveGate outcome manifest).pass = true) :
    (∃ x, nearestRank (JitterStats.values samples) ((samples.length * 990) ⌈/⌉ 1000) = some x ∧
      (x < overflowFloorUs.toNat ∨
          manifest.positiveGate.p99JitterUsMax.toNat < overflowFloorUs.toNat →
        x ≤ manifest.positiveGate.p99JitterUsMax.toNat)) ∧
    outcome.jitter.missedDeadlines ≤ manifest.positiveGate.missedDeadlinesMax ∧
    outcome.rejected ≤ manifest.positiveGate.rejectedFramesMax ∧
    (manifest.positiveGate.watchdogMayTrip = true ∨ outcome.safeState = none) := by
  obtain ⟨hmisses, hp99, hrejected, htrip⟩ := (positive_gate_iff outcome manifest).mp hpass
  obtain ⟨x, hx, hreport⟩ := hrecorded.p99 hne hlength
  refine ⟨⟨x, hx, fun hbelow => ?_⟩, hmisses, hrejected, htrip⟩
  rw [hreport, UInt64.le_iff_toNat_le] at hp99
  rcases Nat.lt_or_ge x overflowFloorUs.toNat with hlt | hge
  · rw [JitterStats.upper_edge_below hlt] at hp99
    omega
  · -- in the overflow bucket the report is the floor, which the threshold has to reach
    rw [JitterStats.upper_edge_overflow hge] at hp99
    omega

/-- A run of one cycle that woke late by `sample` microseconds. -/
def oneCycle (sample misses : UInt64) : RunOutcome ℚ where
  jitter := { JitterStats.recorded [sample] with missedDeadlines := misses }
  misses := []
  executedCycles := 1
  accepted := 1
  rejected := 0
  rejectedByReason := .replicate 8 0
  safeState := none
  tripCycle := none
  actuatorZeroSinceTrip := true
  lastActuator := 0
  hog := none

theorem one_cycle_p99 (sample misses : UInt64) :
    (oneCycle sample misses).jitter.p99Us =
      JitterStats.upperEdge (JitterStats.bucketOf sample.toNat) := by
  have hrecorded : Recorded (oneCycle sample misses) [sample] := rfl
  obtain ⟨x, hx, hreport⟩ := hrecorded.p99 (by simp) (by simp)
  have hone : nearestRank (JitterStats.values [sample]) (([sample].length * 990) ⌈/⌉ 1000) =
      some sample.toNat := by
    rw [Nat.ceilDiv_eq_add_pred_div]
    simp [nearestRank, JitterStats.values]
  rw [hone, Option.some.injEq] at hx
  rw [hreport, hx]

/-- A manifest that tolerates ten misses and `threshold` microseconds of wake jitter. -/
def tolerant (threshold : UInt64) : Manifest where
  positiveGate := ⟨10, threshold, 0, false⟩
  negativeControls := []

theorem positive_gate_bounds_one_cycle :
    (∃ x, nearestRank (JitterStats.values [995]) (([995] : List UInt64).length * 990 ⌈/⌉ 1000) =
        some x ∧
      (x < overflowFloorUs.toNat ∨
          (tolerant 1000).positiveGate.p99JitterUsMax.toNat < overflowFloorUs.toNat →
        x ≤ (tolerant 1000).positiveGate.p99JitterUsMax.toNat)) ∧
    (oneCycle 995 0).jitter.missedDeadlines ≤ (tolerant 1000).positiveGate.missedDeadlinesMax ∧
    (oneCycle 995 0).rejected ≤ (tolerant 1000).positiveGate.rejectedFramesMax ∧
    ((tolerant 1000).positiveGate.watchdogMayTrip = true ∨ (oneCycle 995 0).safeState = none) := by
  have hrecorded : Recorded (oneCycle 995 0) [995] := rfl
  refine positive_gate_bounds (tolerant 1000) hrecorded (by simp) (by simp) ?_
  rw [positive_gate_iff, one_cycle_p99]
  decide

/-- One wake-up 60 ms late, reported as 40 ms, passes a gate that tolerates 50 ms. -/
theorem positive_gate_optimistic :
    (evaluatePositiveGate (oneCycle 60000 6) (tolerant 50000)).pass = true ∧
      nearestRank (JitterStats.values [60000]) (([60000] : List UInt64).length * 990 ⌈/⌉ 1000) =
        some 60000 ∧
      ¬ 60000 ≤ (tolerant 50000).positiveGate.p99JitterUsMax.toNat := by
  refine ⟨?_, ?_, by decide⟩
  · rw [positive_gate_iff, one_cycle_p99]
    decide
  · rw [Nat.ceilDiv_eq_add_pred_div]
    simp [nearestRank, JitterStats.values]

/-! ## The `can-corrupt` verdict -/

/-- The run shows the number of rejections that the manifest states for a reason. -/
def ShowsReason (outcome : RunOutcome F) (name : String) (want : UInt32) : Prop :=
  ∃ i : Fin 8, Reject.name i = name ∧ outcome.rejectedByReason.get i = want

/-- The run shows all that the manifest states about it, and the gate failed. -/
structure ShowsStated (gate : GateReport) (outcome : RunOutcome F) (spec : NegativeControl) :
    Prop where
  total : ∀ total ∈ spec.expectedRejectedTotal, outcome.rejected = total
  byReason : ∀ expected ∈ spec.expectedRejectedByReason, ∀ (name : String) (want : UInt32),
    expected[name]? = some want → ShowsReason outcome name want
  accepted : ∀ acc ∈ spec.expectedAccepted, outcome.accepted = acc
  gate_fails : gate.pass = false

theorem reject_name_injective : ∀ i j : Fin 8, Reject.name i = Reject.name j → i = j := by
  decide

/-- A reason is found under its own name. -/
theorem reason_index_eq_some_iff (name : String) (i : Fin 8) :
    reasonIndex name = some i ↔ Reject.name i = name := by
  unfold reasonIndex
  constructor
  · intro h
    simpa using List.find?_some h
  · intro h
    cases hfind : (List.finRange 8).find? fun j : Fin 8 => Reject.name j == name with
    | none =>
        have hnone := List.find?_eq_none.mp hfind i (List.mem_finRange i)
        simp [h] at hnone
    | some j =>
        have hj : Reject.name j = name := by simpa using List.find?_some hfind
        rw [reject_name_injective j i (hj.trans h.symm)]

theorem reason_check_passed_iff (outcome : RunOutcome F) (name : String) (want : UInt32) :
    (reasonCheck outcome name want).passed = true ↔ ShowsReason outcome name want := by
  unfold reasonCheck ShowsReason
  simp only [beq_iff_eq, Option.map_eq_some_iff, reason_index_eq_some_iff]

/-- Caught means that the run shows all that the manifest states, and that the gate failed. -/
theorem can_corrupt_caught_iff (gate : GateReport) (outcome : RunOutcome F)
    (spec : NegativeControl) :
    (evaluateCanCorrupt gate outcome spec).caught = true ↔ ShowsStated gate outcome spec := by
  have hall : (evaluateCanCorrupt gate outcome spec).caught =
      (canCorruptChecks gate outcome spec).all Check.passed := rfl
  rw [hall, canCorruptChecks]
  simp only [List.all_append, List.all_map, List.all_flatMap, List.all_cons, List.all_nil,
    Bool.and_eq_true, List.all_eq_true, Option.mem_toList, Function.comp_apply, beq_iff_eq,
    reason_check_passed_iff, Prod.forall, ExtTreeMap.mem_toList_iff_getElem?_eq_some,
    Bool.not_eq_true', and_true]
  constructor
  · rintro ⟨⟨⟨htotal, hreason⟩, haccepted⟩, hgate⟩
    exact ⟨htotal, hreason, haccepted, hgate⟩
  · intro h
    exact ⟨⟨⟨h.total, h.byReason⟩, h.accepted⟩, h.gate_fails⟩

/-- A caught run has the total, the whole histogram and the accepted count that the manifest states,
a reason that it does not list counting as zero. -/
def CanCorruptClosed (gate : GateReport) (outcome : RunOutcome F) (spec : NegativeControl) : Prop :=
  (evaluateCanCorrupt gate outcome spec).caught = true →
    spec.expectedRejectedTotal = some outcome.rejected ∧
    (∃ expected, spec.expectedRejectedByReason = some expected ∧
      ∀ i : Fin 8, outcome.rejectedByReason.get i = (expected[Reject.name i]?).getD 0) ∧
    spec.expectedAccepted = some outcome.accepted ∧ gate.pass = false

/-- The manifest states both counts, and lists every reason for which the run refused a frame. -/
def StatesRun (outcome : RunOutcome F) (spec : NegativeControl) : Prop :=
  spec.expectedRejectedTotal.isSome = true ∧ spec.expectedAccepted.isSome = true ∧
    ∃ expected, spec.expectedRejectedByReason = some expected ∧
      ∀ i : Fin 8, expected[Reject.name i]? = none → outcome.rejectedByReason.get i = 0

/-- The manifest states both counts and lists all eight reasons. -/
def StatesAll (spec : NegativeControl) : Prop :=
  spec.expectedRejectedTotal.isSome = true ∧ spec.expectedAccepted.isSome = true ∧
    ∃ expected, spec.expectedRejectedByReason = some expected ∧
      ∀ i : Fin 8, (expected[Reject.name i]?).isSome = true

/-- The manifest lists something that is not a reason, which no run can show. -/
def ListsUnknown (spec : NegativeControl) : Prop :=
  ∃ expected, spec.expectedRejectedByReason = some expected ∧ ∃ (name : String) (want : UInt32),
    expected[name]? = some want ∧ ∀ i : Fin 8, Reject.name i ≠ name

/-- What a caught run shows is all there is to know when the manifest states it. -/
theorem can_corrupt_closed_iff (gate : GateReport) (outcome : RunOutcome F)
    (spec : NegativeControl) :
    CanCorruptClosed gate outcome spec ↔
      (ShowsStated gate outcome spec → StatesRun outcome spec) := by
  unfold CanCorruptClosed
  rw [can_corrupt_caught_iff]
  refine forall_congr' fun hshows => ?_
  constructor
  · rintro ⟨htotal, ⟨expected, hexpected, hreasons⟩, haccepted, -⟩
    refine ⟨by simp [htotal], by simp [haccepted], expected, hexpected, fun i hi => ?_⟩
    rw [hreasons i, hi]
    rfl
  · rintro ⟨htotal, haccepted, expected, hexpected, hunlisted⟩
    obtain ⟨total, htotal⟩ := Option.isSome_iff_exists.mp htotal
    obtain ⟨accepted, haccepted⟩ := Option.isSome_iff_exists.mp haccepted
    refine ⟨?_, ⟨expected, hexpected, fun i => ?_⟩, ?_, hshows.gate_fails⟩
    · rw [hshows.total total htotal, htotal]
    · cases hi : expected[Reject.name i]? with
      | none => exact hunlisted i hi
      | some want =>
          obtain ⟨j, hj, hwant⟩ := hshows.byReason expected hexpected _ _ hi
          rw [← reject_name_injective j i hj, hwant]
          rfl
    · rw [hshows.accepted accepted haccepted, haccepted]

variable [Scalar F]

/-- A run that shows what a manifest states, and one refusal for every reason it does not list. -/
def shown (spec : NegativeControl) : RunOutcome F where
  jitter := JitterStats.new
  misses := []
  executedCycles := 0
  accepted := spec.expectedAccepted.getD 0
  rejected := spec.expectedRejectedTotal.getD 0
  rejectedByReason := .ofFn fun i =>
    (spec.expectedRejectedByReason.bind fun expected => expected[Reject.name i]?).getD 1
  safeState := none
  tripCycle := none
  actuatorZeroSinceTrip := true
  lastActuator := Scalar.ofRat 0
  hog := none

/-- A gate that failed. -/
def failedGate : GateReport := ⟨[], false⟩

theorem shown_reason (spec : NegativeControl) (i : Fin 8) :
    (shown spec : RunOutcome F).rejectedByReason.get i =
      (spec.expectedRejectedByReason.bind fun expected => expected[Reject.name i]?).getD 1 := by
  show (Vector.ofFn _)[(i : Nat)] = _
  rw [Vector.getElem_ofFn]

theorem shown_shows_stated (h : ¬ ListsUnknown spec) :
    ShowsStated failedGate (shown spec : RunOutcome F) spec := by
  refine ⟨?_, ?_, ?_, rfl⟩
  · intro total htotal
    simp [shown, Option.mem_def.mp htotal]
  · intro expected hexpected name want hwant
    by_contra hnone
    apply h
    refine ⟨expected, hexpected, name, want, hwant, fun i hi => hnone ⟨i, hi, ?_⟩⟩
    rw [shown_reason, Option.mem_def.mp hexpected, Option.bind_some, hi, hwant]
    rfl
  · intro acc hacc
    simp [shown, Option.mem_def.mp hacc]

/-- Every caught run is the one the manifest states exactly when the manifest states everything, or
can never be met. -/
theorem can_corrupt_closed_for_all_iff (spec : NegativeControl) :
    (∀ (gate : GateReport) (outcome : RunOutcome F), CanCorruptClosed gate outcome spec) ↔
      StatesAll spec ∨ ListsUnknown spec := by
  constructor
  · intro h
    by_cases hunknown : ListsUnknown spec
    · exact .inr hunknown
    left
    obtain ⟨htotal, haccepted, expected, hexpected, hunlisted⟩ :=
      (can_corrupt_closed_iff failedGate (shown spec : RunOutcome F) spec).mp (h _ _)
        (shown_shows_stated hunknown)
    refine ⟨htotal, haccepted, expected, hexpected, fun i => ?_⟩
    cases hi : expected[Reject.name i]? with
    | some want => rfl
    | none =>
        have hzero := hunlisted i hi
        rw [shown_reason, hexpected, Option.bind_some, hi] at hzero
        cases hzero
  · rintro (⟨htotal, haccepted, expected, hexpected, hall⟩ |
      ⟨expected, hexpected, name, want, hwant, hunknown⟩) gate outcome
    · rw [can_corrupt_closed_iff]
      intro _
      refine ⟨htotal, haccepted, expected, hexpected, fun i hi => ?_⟩
      have hlisted := hall i
      rw [hi] at hlisted
      cases hlisted
    · rw [can_corrupt_closed_iff]
      intro hshows
      obtain ⟨i, hi, -⟩ := hshows.byReason expected hexpected name want hwant
      exact absurd hi (hunknown i)

/-! ## The `sensor-freeze` verdict -/

/-- The run shows a safe state within the bound, if the manifest states one, and what else the
control asks. -/
structure ShowsFreeze (gate : GateReport) (outcome : RunOutcome F) (spec : NegativeControl) :
    Prop where
  latched : ∃ s, outcome.safeState = some s ∧
    ∀ bound ∈ spec.maxReactionTimeUs, s.timeSinceLastAcceptedUs ≤ bound
  actuator_zero : outcome.actuatorZeroSinceTrip = true
  gate_fails : gate.pass = false
  trip_after_freeze : ∀ c ∈ spec.freezeAtCycle, ∃ t, outcome.tripCycle = some t ∧ c < t

/-- A missing bound is the largest there is. -/
theorem le_bound_iff (bound : Option UInt64) (v : UInt64) :
    v ≤ bound.getD 0xFFFFFFFFFFFFFFFF ↔ ∀ b ∈ bound, v ≤ b := by
  cases bound with
  | none =>
      have htop : (0xFFFFFFFFFFFFFFFF : UInt64).toNat = 2 ^ 64 - 1 := rfl
      have hlt := v.toNat_lt
      constructor
      · intro _ b hb
        cases hb
      · intro _
        rw [Option.getD_none, UInt64.le_iff_toNat_le]
        omega
  | some bound => simp

omit [Scalar F] in
/-- Caught means that the run shows a freeze. -/
theorem sensor_freeze_caught_iff (gate : GateReport) (outcome : RunOutcome F)
    (spec : NegativeControl) :
    (evaluateSensorFreeze gate outcome spec).caught = true ↔ ShowsFreeze gate outcome spec := by
  have hall : (evaluateSensorFreeze gate outcome spec).caught =
      (sensorFreezeChecks gate outcome spec).all Check.passed := rfl
  have htrip : ∀ c : UInt64, (outcome.tripCycle.map fun t => decide (t > c)).getD false = true ↔
      ∃ t, outcome.tripCycle = some t ∧ c < t := by
    intro c
    cases outcome.tripCycle <;> simp
  rw [hall, sensorFreezeChecks]
  simp only [List.all_append, List.all_map, List.all_cons, List.all_nil, Bool.and_eq_true,
    List.all_eq_true, Option.mem_toList, Function.comp_apply, Bool.not_eq_true', and_true, htrip]
  cases hsafe : outcome.safeState with
  | none =>
      constructor
      · intro h
        cases h.1.1
      · intro h
        obtain ⟨s, hs, -⟩ := h.latched
        rw [hsafe] at hs
        cases hs
  | some s =>
      have hreason : s.reasonName = "sensor_stale" := rfl
      simp only [Option.map_some, Option.getD_some, Option.isSome_some, hreason, beq_self_eq_true,
        decide_eq_true_eq, true_and]
      rw [le_bound_iff]
      constructor
      · rintro ⟨⟨hwithin, hzero, hgate⟩, hafter⟩
        exact ⟨⟨s, hsafe, hwithin⟩, hzero, hgate, hafter⟩
      · intro h
        obtain ⟨s', hs', hwithin⟩ := h.latched
        rw [hsafe] at hs'
        cases hs'
        exact ⟨⟨hwithin, h.actuator_zero, h.gate_fails⟩, h.trip_after_freeze⟩

/-- A caught run latched within a bound that the manifest states. -/
def FreezeClosed (gate : GateReport) (outcome : RunOutcome F) (spec : NegativeControl) : Prop :=
  (evaluateSensorFreeze gate outcome spec).caught = true →
    ∃ s bound, outcome.safeState = some s ∧ spec.maxReactionTimeUs = some bound ∧
      s.timeSinceLastAcceptedUs ≤ bound

omit [Scalar F] in
/-- A caught freeze is one within a stated bound when there is one. -/
theorem freeze_closed_iff (gate : GateReport) (outcome : RunOutcome F) (spec : NegativeControl) :
    FreezeClosed gate outcome spec ↔
      (ShowsFreeze gate outcome spec → spec.maxReactionTimeUs.isSome = true) := by
  unfold FreezeClosed
  rw [sensor_freeze_caught_iff]
  refine forall_congr' fun hshows => ?_
  constructor
  · rintro ⟨s, bound, -, hbound, -⟩
    simp [hbound]
  · intro hstated
    obtain ⟨bound, hbound⟩ := Option.isSome_iff_exists.mp hstated
    obtain ⟨s, hs, hwithin⟩ := hshows.latched
    exact ⟨s, bound, hs, hbound, hwithin bound hbound⟩

/-- A run that froze and latched at once, at the last cycle there is. -/
def frozen : RunOutcome F where
  jitter := JitterStats.new
  misses := []
  executedCycles := 0
  accepted := 0
  rejected := 0
  rejectedByReason := .replicate 8 0
  safeState := some ⟨.sensorStale 0 0 0⟩
  tripCycle := some 0xFFFFFFFFFFFFFFFF
  actuatorZeroSinceTrip := true
  lastActuator := Scalar.ofRat 0
  hog := none

/-- Every caught freeze is one within a stated bound exactly when a bound is stated, or no run can
trip after the freeze. -/
theorem freeze_closed_for_all_iff (spec : NegativeControl) :
    (∀ (gate : GateReport) (outcome : RunOutcome F), FreezeClosed gate outcome spec) ↔
      spec.maxReactionTimeUs.isSome = true ∨ spec.freezeAtCycle = some 0xFFFFFFFFFFFFFFFF := by
  constructor
  · intro h
    by_cases hlast : spec.freezeAtCycle = some 0xFFFFFFFFFFFFFFFF
    · exact .inr hlast
    left
    by_contra hnone
    rw [Bool.not_eq_true, Option.isSome_eq_false_iff, Option.isNone_iff_eq_none] at hnone
    have hshows : ShowsFreeze failedGate (frozen : RunOutcome F) spec := by
      refine ⟨⟨_, rfl, by simp [hnone]⟩, rfl, rfl, fun c hc => ⟨_, rfl, ?_⟩⟩
      have hne : c ≠ 0xFFFFFFFFFFFFFFFF := fun heq => hlast (heq ▸ hc)
      rw [ne_eq, ← UInt64.toNat_inj] at hne
      have hlt := c.toNat_lt
      rw [UInt64.lt_iff_toNat_lt]
      have htop : (0xFFFFFFFFFFFFFFFF : UInt64).toNat = 2 ^ 64 - 1 := rfl
      omega
    have hstated := (freeze_closed_iff failedGate (frozen : RunOutcome F) spec).mp (h _ _) hshows
    rw [hnone] at hstated
    cases hstated
  · rintro (hstated | hlast) gate outcome
    · rw [freeze_closed_iff]
      exact fun _ => hstated
    · rw [freeze_closed_iff]
      intro hshows
      obtain ⟨t, -, ht⟩ := hshows.trip_after_freeze _ hlast
      rw [UInt64.lt_iff_toNat_lt] at ht
      have htop : (0xFFFFFFFFFFFFFFFF : UInt64).toNat = 2 ^ 64 - 1 := rfl
      have hlt := t.toNat_lt
      omega

/-- When the verdicts on a manifest entry vouch for what they say: for one run, and for every run.
-/
theorem verdicts_fail_closed_iff (spec : NegativeControl) :
    (∀ (gate : GateReport) (outcome : RunOutcome F), CanCorruptClosed gate outcome spec ↔
      (ShowsStated gate outcome spec → StatesRun outcome spec)) ∧
    ((∀ (gate : GateReport) (outcome : RunOutcome F), CanCorruptClosed gate outcome spec) ↔
      StatesAll spec ∨ ListsUnknown spec) ∧
    (∀ (gate : GateReport) (outcome : RunOutcome F), FreezeClosed gate outcome spec ↔
      (ShowsFreeze gate outcome spec → spec.maxReactionTimeUs.isSome = true)) ∧
    ((∀ (gate : GateReport) (outcome : RunOutcome F), FreezeClosed gate outcome spec) ↔
      spec.maxReactionTimeUs.isSome = true ∨ spec.freezeAtCycle = some 0xFFFFFFFFFFFFFFFF) :=
  ⟨fun gate outcome => can_corrupt_closed_iff gate outcome spec,
    can_corrupt_closed_for_all_iff spec, fun gate outcome => freeze_closed_iff gate outcome spec,
    freeze_closed_for_all_iff spec⟩

/-- A `can-corrupt` entry that states no expectation. -/
def silentCorrupt : NegativeControl := ⟨"can-corrupt", none, none, none, none, none⟩

/-- A `sensor-freeze` entry without a reaction bound. -/
def silentFreeze : NegativeControl := ⟨"sensor-freeze", none, none, none, some 5000, none⟩

/-- A manifest with the two entries. -/
def silentManifest : Manifest where
  positiveGate := ⟨0, 1000, 0, false⟩
  negativeControls := [silentCorrupt, silentFreeze]

/-- A run that refused one frame for an unknown PGN and latched an hour after the last accepted
one. -/
def brokenRun : RunOutcome ℚ where
  jitter := JitterStats.recorded [0]
  misses := []
  executedCycles := 400000
  accepted := 5000
  rejected := 1
  rejectedByReason := #v[0, 1, 0, 0, 0, 0, 0, 0]
  safeState := some ⟨.sensorStale 0 3600000000 80000⟩
  tripCycle := some 360000
  actuatorZeroSinceTrip := true
  lastActuator := 0
  hog := none

/-- Under a manifest that states nothing, both verdicts on the broken run are `caught`. -/
theorem silent_manifest_caught :
    silentManifest.control "can-corrupt" = .ok silentCorrupt ∧
      silentManifest.control "sensor-freeze" = .ok silentFreeze ∧
      (evaluateCanCorrupt (evaluatePositiveGate brokenRun silentManifest) brokenRun
        silentCorrupt).caught = true ∧
      ¬ CanCorruptClosed (evaluatePositiveGate brokenRun silentManifest) brokenRun
        silentCorrupt ∧
      (evaluateSensorFreeze (evaluatePositiveGate brokenRun silentManifest) brokenRun
        silentFreeze).caught = true ∧
      ¬ FreezeClosed (evaluatePositiveGate brokenRun silentManifest) brokenRun silentFreeze := by
  have hgate : (evaluatePositiveGate brokenRun silentManifest).pass = false := by
    rw [← Bool.not_eq_true, positive_gate_iff]
    intro h
    exact absurd h.2.2.1 (by decide)
  have hcorrupt : ShowsStated (evaluatePositiveGate brokenRun silentManifest) brokenRun
      silentCorrupt := by
    refine ⟨?_, ?_, ?_, hgate⟩ <;> simp [silentCorrupt]
  have hfreeze : ShowsFreeze (evaluatePositiveGate brokenRun silentManifest) brokenRun
      silentFreeze := by
    refine ⟨⟨_, rfl, by simp [silentFreeze]⟩, rfl, hgate, ?_⟩
    intro c hc
    cases hc
    exact ⟨360000, rfl, by decide⟩
  refine ⟨rfl, rfl, (can_corrupt_caught_iff _ _ _).mpr hcorrupt, ?_,
    (sensor_freeze_caught_iff _ _ _).mpr hfreeze, ?_⟩
  · rw [can_corrupt_closed_iff]
    intro h
    cases (h hcorrupt).1
  · rw [freeze_closed_iff]
    intro h
    cases h hfreeze

end Fieldbus.Report
