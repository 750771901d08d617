import Fieldbus.Host.Virtual

/-!
# Verdicts in virtual time

What the gate and the controls say of runs in virtual time, read off the schedule and the manifest.
-/

namespace Fieldbus.Report

open J1939

variable {F : Type} [Scalar F] [FiniteScalar F] {cfg : RunConfig} (clock : Clock)
variable (hogWindow : Option HogWindow) (seed : UInt64) {faults : FaultSchedule}

omit [FiniteScalar F] in
/-- The p99 of a run in virtual time: the edge of the first bucket, or zero without a cycle. -/
theorem virtual_p99 (h : RunState.Virtual cfg) (hcycles : cfg.cycles.toNat < 2 ^ 32) :
    (run (SimBus.new seed faults : SimBus F) cfg clock hogWindow : RunOutcome F).jitter.p99Us =
      if cfg.cycles = 0 then 0 else 10 := by
  have hrecorded := run_recorded (F := F) cfg clock hogWindow (SimBus.new seed faults : SimBus F)
  by_cases hzero : cfg.cycles = 0
  · have hnone : (List.range cfg.cycles.toNat).map (RunState.lateness cfg clock) = [] := by
      rw [hzero]
      rfl
    rw [if_pos hzero, hrecorded, hnone]
    rfl
  · have hpos : cfg.cycles.toNat ≠ 0 := fun hc => hzero (UInt64.toNat_inj.mp hc)
    obtain ⟨x, hx, hp99⟩ := hrecorded.p99 (by simpa using hpos) (by simpa using hcycles)
    obtain ⟨sample, hsample, rfl⟩ := List.mem_map.mp
      (List.mem_mergeSort.mp (List.mem_of_getElem? hx))
    obtain ⟨i, -, rfl⟩ := List.mem_map.mp hsample
    rw [if_neg hzero, hp99, h.lateness]
    rfl

/-- The positive gate on a run in virtual time reads the schedule alone. -/
theorem virtual_gate_iff (h : RunState.Virtual cfg) (hcycles : cfg.cycles.toNat < 2 ^ 32)
    (hinjected : faults.injectedIn cfg.cycles.toNat < 2 ^ 32) (manifest : Manifest) :
    (evaluatePositiveGate (run (SimBus.new seed faults : SimBus F) cfg clock hogWindow :
      RunOutcome F) manifest).pass = true ↔
        (cfg.cycles = 0 ∨ 10 ≤ manifest.positiveGate.p99JitterUsMax) ∧
        faults.injectedIn cfg.cycles.toNat ≤ manifest.positiveGate.rejectedFramesMax.toNat ∧
        (manifest.positiveGate.watchdogMayTrip = true ∨
          ∀ k < cfg.cycles.toNat, ¬ faults.Starved (RunState.budget cfg) k) := by
  obtain ⟨hlength, hmissed⟩ := run_misses (F := F) hogWindow (SimBus.new seed faults : SimBus F)
    (h.punctual clock)
  obtain ⟨hcount, hreport⟩ := RunState.rejected_after (F := F) seed faults cfg clock hogWindow
    cfg.cycles.toNat
  have hrejected : (run (SimBus.new seed faults : SimBus F) cfg clock hogWindow :
      RunOutcome F).rejected = UInt32.ofNat (faults.injectedIn cfg.cycles.toNat) :=
    hreport.trans hcount
  have hsafe := run_untripped_iff (F := F) seed faults (h.forward clock) hogWindow
  rw [positive_gate_iff, hmissed, hlength, h.misses,
    virtual_p99 clock hogWindow seed h hcycles, hrejected, hsafe, UInt32.le_iff_toNat_le,
    UInt32.toNat_ofNat_of_lt' hinjected]
  have hstale : (∀ k < cfg.cycles.toNat, ¬ RunState.Stale faults cfg clock k) ↔
      ∀ k < cfg.cycles.toNat, ¬ faults.Starved (RunState.budget cfg) k :=
    forall₂_congr fun k hk => not_congr (h.stale_iff hk)
  rw [hstale]
  by_cases hnone : cfg.cycles = 0
  · have hnonneg : 0 ≤ manifest.positiveGate.p99JitterUsMax :=
      UInt64.le_iff_toNat_le.mpr (Nat.zero_le _)
    simp [hnone, hnonneg]
  · simp [hnone]

/-- The schedule of the `sensor-freeze` control. -/
def freezing (cycle : UInt64) : FaultSchedule := { FaultSchedule.clean with freezeAt := some cycle }

theorem freezing_emits_iff (cycle : UInt64) {k : Nat} (hk : k < 2 ^ 64) :
    (freezing cycle).Emits k ↔ k < cycle.toNat := by
  have hsilent : (freezing cycle).silent (UInt64.ofNat k) =
      decide (cycle ≤ UInt64.ofNat k) := by
    simp [FaultSchedule.silent, freezing, FaultSchedule.clean]
  rw [FaultSchedule.Emits, hsilent, decide_eq_false_iff_not, UInt64.le_iff_toNat_le,
    UInt64.toNat_ofNat_of_lt' hk, Nat.not_le]

/-- A sensor that stops starves the node from a fixed cycle on. -/
theorem freezing_starved_iff (cycle : UInt64) (budget : Nat) {k : Nat} (hk : k < 2 ^ 64) :
    (freezing cycle).Starved budget k ↔ max cycle.toNat 1 + budget ≤ k := by
  constructor
  · rintro ⟨hbudget, hheard⟩
    by_cases hzero : cycle.toNat = 0
    · omega
    · have hlast := hheard (min (cycle.toNat - 1) k) (by omega)
        ((freezing_emits_iff cycle (by omega)).mpr (by omega))
      omega
  · intro h
    refine ⟨by omega, fun j hj hemit => ?_⟩
    have hlt := (freezing_emits_iff cycle (by omega)).mp hemit
    omega

theorem freezing_first_starved_iff (cycle : UInt64) (budget : Nat) {k : Nat} (hk : k < 2 ^ 64) :
    (freezing cycle).FirstStarved budget k ↔ k = max cycle.toNat 1 + budget := by
  constructor
  · rintro ⟨hstarved, hbefore⟩
    have hle := (freezing_starved_iff cycle budget hk).mp hstarved
    by_contra hne
    refine hbefore (max cycle.toNat 1 + budget) (by omega) ?_
    exact (freezing_starved_iff cycle budget (by omega)).mpr (Nat.le_refl _)
  · rintro rfl
    refine ⟨(freezing_starved_iff cycle budget hk).mpr (Nat.le_refl _), fun j hj hstarved => ?_⟩
    have hle := (freezing_starved_iff cycle budget (by omega)).mp hstarved
    omega

/-- The schedule of a sensor that stops injects nothing. -/
theorem freezing_injected_in (cycle : UInt64) (cycles : Nat) :
    (freezing cycle).injectedIn cycles = 0 := by
  refine Finset.sum_eq_zero fun k _ => ?_
  rw [FaultSchedule.injections]
  split
  · simp [FaultSchedule.reasons, freezing, FaultSchedule.clean]
  · rfl

omit [Scalar F] [FiniteScalar F] in
/-- From the frame last heard to the first starved cycle: the budget and one period. -/
theorem virtual_reaction (h : RunState.Virtual cfg) {k : Nat} (hk : k < cfg.cycles.toNat)
    (hfirst : faults.FirstStarved (RunState.budget cfg) k) :
    (Watchdog.SafeState.timeSinceLastAcceptedUs
      ⟨.sensorStale (RunState.heardAt faults cfg clock (k + 1))
        (RunState.started cfg clock (UInt64.ofNat k)) cfg.watchdogTimeoutUs⟩).toNat =
      (RunState.budget cfg + 1) * cfg.periodUs.toNat := by
  have hlast := hfirst.last_heard
  rw [Watchdog.SafeState.timeSinceLastAcceptedUs, Watchdog.saturating_sub_toNat,
    show (RunState.started cfg clock (UInt64.ofNat k)).toNat = _ from h.start_of hk,
    h.heard_at (k := k + 1) hk, ← Nat.sub_mul]
  congr 1
  omega

/-- The gate fails on a run that trips if it must not trip, or asks for less than one bucket. -/
theorem virtual_gate_fails_iff (h : RunState.Virtual cfg) (hcycles : cfg.cycles.toNat < 2 ^ 32)
    (hinjected : faults.injectedIn cfg.cycles.toNat = 0) {k : Nat} (hk : k < cfg.cycles.toNat)
    (hstarved : faults.Starved (RunState.budget cfg) k) (manifest : Manifest) :
    (evaluatePositiveGate (run (SimBus.new seed faults : SimBus F) cfg clock hogWindow :
      RunOutcome F) manifest).pass = false ↔
        manifest.positiveGate.watchdogMayTrip = false ∨
          manifest.positiveGate.p99JitterUsMax < 10 := by
  have hnonzero : cfg.cycles ≠ 0 := by
    rintro hzero
    rw [hzero] at hk
    exact Nat.not_lt_zero k hk
  rw [← Bool.not_eq_true, virtual_gate_iff clock hogWindow seed h hcycles (by omega), hinjected]
  constructor
  · intro hfails
    by_contra hpass
    rw [not_or, Bool.not_eq_false, UInt64.not_lt] at hpass
    exact hfails ⟨.inr hpass.2, Nat.zero_le _, .inl hpass.1⟩
  · rintro (htrip | hp99) ⟨hedge, -, hmay⟩
    · obtain hmay | hnone := hmay
      · rw [htrip] at hmay
        cases hmay
      · exact hnone k hk hstarved
    · obtain hzero | hle := hedge
      · exact hnonzero hzero
      · exact UInt64.not_lt.mpr hle hp99

/-- The verdict on the `sensor-freeze` control in virtual time. The run trips one budget and a
period after the last frame, counted from the first cycle if the sensor is never heard. -/
theorem virtual_freeze_iff (h : RunState.Virtual cfg) (hcycles : cfg.cycles.toNat < 2 ^ 32)
    {cycle : UInt64} (manifest : Manifest) {spec : NegativeControl}
    (hspec : spec.freezeAtCycle = some cycle) :
    let outcome : RunOutcome F :=
      run (SimBus.new seed (freezing cycle) : SimBus F) cfg clock hogWindow
    (evaluateSensorFreeze (evaluatePositiveGate outcome manifest) outcome spec).caught = true ↔
      max cycle.toNat 1 + RunState.budget cfg < cfg.cycles.toNat ∧
      (RunState.budget cfg = 0 → cycle = 0) ∧
      (∀ bound ∈ spec.maxReactionTimeUs,
        (RunState.budget cfg + 1) * cfg.periodUs.toNat ≤ bound.toNat) ∧
      (manifest.positiveGate.watchdogMayTrip = false ∨
        manifest.positiveGate.p99JitterUsMax < 10) := by
  intro outcome
  have hnone := run_untripped_iff (F := F) seed (freezing cycle) (h.forward clock) hogWindow
  rw [sensor_freeze_caught_iff]
  generalize htrips : max cycle.toNat 1 + RunState.budget cfg = trip
  by_cases hlt : trip < cfg.cycles.toNat
  · have hrange : trip < 2 ^ 64 := hlt.trans cfg.cycles.toNat_lt
    have hfirst : (freezing cycle).FirstStarved (RunState.budget cfg) trip :=
      (freezing_first_starved_iff cycle _ hrange).mpr htrips.symm
    have hstale := h.first_stale clock hlt hfirst
    obtain ⟨hcycle, hsafe⟩ := run_trips_at (F := F) seed (h.forward clock) hogWindow hlt hstale
    have hreaction := virtual_reaction clock h hlt hfirst
    have hfails := virtual_gate_fails_iff (F := F) clock hogWindow seed h hcycles
      (freezing_injected_in cycle _) hlt hfirst.1 manifest
    have hafter : cycle < UInt64.ofNat trip ↔ (RunState.budget cfg = 0 → cycle = 0) := by
      rw [UInt64.lt_iff_toNat_lt, UInt64.toNat_ofNat_of_lt' hrange, ← UInt64.toNat_inj]
      show _ ↔ (_ → cycle.toNat = 0)
      omega
    generalize (⟨.sensorStale _ _ _⟩ : Watchdog.SafeState) = state at hsafe hreaction
    have hbounds (bound : UInt64) : state.timeSinceLastAcceptedUs ≤ bound ↔
        (RunState.budget cfg + 1) * cfg.periodUs.toNat ≤ bound.toNat := by
      rw [UInt64.le_iff_toNat_le, hreaction]
    constructor
    · intro hshows
      obtain ⟨s, hs, hwithin⟩ := hshows.latched
      obtain rfl := Option.some.inj (hsafe.symm.trans hs)
      obtain ⟨t, ht, hlate⟩ := hshows.trip_after_freeze cycle hspec
      obtain rfl := Option.some.inj (hcycle.symm.trans ht)
      exact ⟨hlt, hafter.mp hlate, fun bound hb => (hbounds bound).mp (hwithin bound hb),
        hfails.mp hshows.gate_fails⟩
    · rintro ⟨-, hzero, hwithin, hmust⟩
      refine ⟨⟨_, hsafe, fun bound hb => (hbounds bound).mpr (hwithin bound hb)⟩,
        (RunState.after_tracked _ _).actuatorZero, hfails.mpr hmust, fun c hc => ?_⟩
      obtain rfl := Option.some.inj (hspec.symm.trans hc)
      exact ⟨_, hcycle, hafter.mpr hzero⟩
  -- no cycle of the run is starved, so nothing latches
  · have hquiet : outcome.safeState = none := by
      refine hnone.mpr fun k hk hstale => ?_
      have hstarved := (h.stale_iff hk).mp hstale
      have hle := (freezing_starved_iff cycle _ (hk.trans cfg.cycles.toNat_lt)).mp hstarved
      omega
    constructor
    · intro hshows
      obtain ⟨s, hs, -⟩ := hshows.latched
      rw [hquiet] at hs
      cases hs
    · rintro ⟨hlt', -⟩
      exact absurd hlt' hlt

theorem reject_index_surjective (i : Fin 8) : ∃ r : Reject, r.index = i := by
  have hall : ∀ i : Fin 8, i ∈ [Reject.badLength, .unknownPgn, .unexpectedSource, .badReserved,
      .badCrc, .duplicate, .outOfOrder 0 0, .outOfRange].map Reject.index := by decide
  obtain ⟨r, -, hr⟩ := List.mem_map.mp (hall i)
  exact ⟨r, hr⟩

/-- The verdict on the `can-corrupt` control in virtual time, for any schedule that is never silent:
what the manifest states are the numbers of injected frames and of cycles. -/
theorem virtual_corrupt_iff (h : RunState.Virtual cfg) (hcycles : cfg.cycles.toNat < 2 ^ 32)
    (hemits : ∀ k, faults.Emits k) (hinjected : faults.injectedIn cfg.cycles.toNat < 2 ^ 32)
    (manifest : Manifest) (spec : NegativeControl) :
    let outcome : RunOutcome F := run (SimBus.new seed faults : SimBus F) cfg clock hogWindow
    (evaluateCanCorrupt (evaluatePositiveGate outcome manifest) outcome spec).caught = true ↔
      (∀ total ∈ spec.expectedRejectedTotal,
        total.toNat = faults.injectedIn cfg.cycles.toNat) ∧
      (∀ expected ∈ spec.expectedRejectedByReason, ∀ (name : String) (want : UInt32),
        expected[name]? = some want → ∃ r : Reject, Reject.name r.index = name ∧
          want.toNat = Nat.count (faults.Injects r) cfg.cycles.toNat) ∧
      (∀ acc ∈ spec.expectedAccepted, acc.toNat = cfg.cycles.toNat) ∧
      (manifest.positiveGate.rejectedFramesMax.toNat < faults.injectedIn cfg.cycles.toNat ∨
        cfg.cycles ≠ 0 ∧ manifest.positiveGate.p99JitterUsMax < 10) := by
  intro outcome
  obtain ⟨hcounted, haccepted⟩ :=
    RunState.counted_after (F := F) seed faults cfg clock hogWindow cfg.cycles.toNat
  obtain ⟨hcount, hreport⟩ := RunState.rejected_after (F := F) seed faults cfg clock hogWindow
    cfg.cycles.toNat
  have hrejected : outcome.rejected = UInt32.ofNat (faults.injectedIn cfg.cycles.toNat) :=
    hreport.trans hcount
  have hall : Nat.count faults.Emits cfg.cycles.toNat = cfg.cycles.toNat :=
    Nat.count_iff_forall.mpr fun k _ => hemits k
  have hevery : outcome.accepted = UInt32.ofNat cfg.cycles.toNat := by
    rw [← hall]
    exact haccepted.trans hcounted.accepted
  have hreason (r : Reject) : (outcome.rejectedByReason.get r.index).toNat =
      Nat.count (faults.Injects r) cfg.cycles.toNat := by
    rw [show outcome.rejectedByReason.get r.index = _ from hcounted.byReason r]
    exact UInt32.toNat_ofNat_of_lt' ((Nat.count_le _).trans_lt hcycles)
  have hshows (name : String) (want : UInt32) : ShowsReason outcome name want ↔
      ∃ r : Reject, Reject.name r.index = name ∧
        want.toNat = Nat.count (faults.Injects r) cfg.cycles.toNat := by
    constructor
    · rintro ⟨i, hname, hwant⟩
      obtain ⟨r, rfl⟩ := reject_index_surjective i
      exact ⟨r, hname, by rw [← hwant, hreason]⟩
    · rintro ⟨r, hname, hwant⟩
      exact ⟨r.index, hname, UInt32.toNat_inj.mp (by rw [hreason, hwant])⟩
  have hnever (k : Nat) : ¬ faults.Starved (RunState.budget cfg) k := fun hstarved => by
    have hself := hstarved.2 k (Nat.le_refl k) (hemits k)
    omega
  have hgate := virtual_gate_iff (F := F) clock hogWindow seed h hcycles hinjected manifest
  have hfails : (evaluatePositiveGate outcome manifest).pass = false ↔
      manifest.positiveGate.rejectedFramesMax.toNat < faults.injectedIn cfg.cycles.toNat ∨
        cfg.cycles ≠ 0 ∧ manifest.positiveGate.p99JitterUsMax < 10 := by
    rw [← Bool.not_eq_true, hgate, ← UInt64.not_le]
    simp only [fun k => hnever k, not_false_eq_true, implies_true, or_true, and_true]
    rw [not_and_or, not_or, Nat.not_le, or_comm]
  rw [can_corrupt_caught_iff]
  constructor
  · intro hcaught
    refine ⟨fun total htotal => ?_, fun expected hexpected name want hwant => ?_,
      fun acc hacc => ?_, hfails.mp hcaught.gate_fails⟩
    · rw [← hcaught.total total htotal, hrejected, UInt32.toNat_ofNat_of_lt' hinjected]
    · exact (hshows name want).mp (hcaught.byReason expected hexpected name want hwant)
    · rw [← hcaught.accepted acc hacc, hevery, UInt32.toNat_ofNat_of_lt' hcycles]
  · rintro ⟨htotal, hreasons, hacc, hmust⟩
    refine ⟨fun total hmem => ?_, fun expected hexpected name want hwant => ?_,
      fun acc hmem => ?_, hfails.mpr hmust⟩
    · rw [hrejected, ← htotal total hmem, UInt32.ofNat_toNat]
    · exact (hshows name want).mpr (hreasons expected hexpected name want hwant)
    · rw [hevery, ← hacc acc hmem, UInt32.ofNat_toNat]

end Fieldbus.Report
