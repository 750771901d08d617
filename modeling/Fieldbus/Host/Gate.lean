import Fieldbus.Host.Deadlines
import Fieldbus.Host.Verdicts

/-!
# What a passing run has kept

The histogram of a run is that of the wake jitter of its cycles, on every bus and with every clock
(`run_recorded`). So the positive gate, which reads the histogram, speaks about the cycles
themselves: `passing_run_on_time` counts those that a passing run may have started late.
-/

namespace Fieldbus

open OrderStatistic

variable {F β : Type} [Scalar F] [CanBus β]

namespace RunState

variable {cfg : RunConfig} {clock : Clock} {hogWindow : Option HogWindow} {l : RunState F β}

/-! ## The samples of a run -/

/-- The time from the scheduled start of a cycle to its start, zero if it starts early. -/
def lateness (cfg : RunConfig) (clock : Clock) (i : Nat) : UInt64 :=
  Watchdog.saturatingSub (started cfg clock (UInt64.ofNat i)) (scheduled cfg (UInt64.ofNat i))

variable (cfg clock hogWindow l) in
/-- One more cycle records its own lateness. -/
theorem jitter_next (k : Nat) :
    ∃ missed, (l.next cfg clock hogWindow (UInt64.ofNat k)).jitter =
      { l.jitter.record (lateness cfg clock k) with missedDeadlines := missed } := by
  obtain ⟨skipped, -, hstart⟩ := account_start cfg (inWindow hogWindow (UInt64.ofNat k))
    (UInt64.ofNat k) (started cfg clock (UInt64.ofNat k)) (lateness cfg clock k) l
  obtain ⟨late, -, hend⟩ := account_end cfg
    (inWindow hogWindow (UInt64.ofNat k)) (UInt64.ofNat k) (scheduled cfg (UInt64.ofNat k))
    (started cfg clock (UInt64.ofNat k)) (lateness cfg clock k) (ended cfg clock (UInt64.ofNat k))
    ((l.accountStart cfg (inWindow hogWindow (UInt64.ofNat k)) (UInt64.ofNat k)
      (started cfg clock (UInt64.ofNat k)) (lateness cfg clock k)).work cfg (UInt64.ofNat k)
        (scheduled cfg (UInt64.ofNat k)) (started cfg clock (UInt64.ofNat k)))
  simp only [lateness] at hstart hend
  simp only [RunState.next, hend]
  rw [hstart]
  exact ⟨_, rfl⟩

variable (cfg clock hogWindow) in
/-- The histogram after any number of cycles. -/
theorem jitter_after (bus : β) (k : Nat) :
    ∃ missed, (after (F := F) bus cfg clock hogWindow k).jitter =
      { JitterStats.recorded ((List.range k).map (lateness cfg clock)) with
        missedDeadlines := missed } := by
  induction k with
  | zero => exact ⟨0, rfl⟩
  | succ k ih =>
      obtain ⟨before, hbefore⟩ := ih
      obtain ⟨missed, hnext⟩ :=
        jitter_next cfg clock hogWindow (after (F := F) bus cfg clock hogWindow k) k
      refine ⟨missed, ?_⟩
      rw [after, hnext, hbefore, List.range_succ, List.map_append, JitterStats.recorded,
        JitterStats.recorded, List.foldl_append]
      rfl

end RunState

namespace Report

variable {cfg : RunConfig} {clock : Clock} {hogWindow : Option HogWindow}

variable (cfg clock hogWindow) in
/-- A run has recorded the lateness of each of its cycles. -/
theorem run_recorded (bus : β) :
    Recorded (run bus cfg clock hogWindow : RunOutcome F)
      ((List.range cfg.cycles.toNat).map (RunState.lateness cfg clock)) := by
  obtain ⟨missed, hjitter⟩ :=
    RunState.jitter_after (F := F) cfg clock hogWindow bus cfg.cycles.toNat
  have hreport : (run bus cfg clock hogWindow : RunOutcome F).jitter = _ := hjitter
  unfold Recorded
  rw [hreport]

variable (hogWindow) in
/-- What a run has missed, and counted as missed. -/
theorem run_misses (bus : β) (h : RunState.Punctual cfg clock) :
    (run bus cfg clock hogWindow : RunOutcome F).misses.length =
        Nat.count (RunState.Late cfg clock) cfg.cycles.toNat +
          Occupancy.vacant (RunState.periodOf cfg clock) cfg.cycles.toNat ∧
      (run bus cfg clock hogWindow : RunOutcome F).jitter.missedDeadlines =
        UInt64.ofNat (run bus cfg clock hogWindow : RunOutcome F).misses.length := by
  have hacc := RunState.accounted_after (F := F) hogWindow h bus (Nat.le_refl _)
  exact ⟨hacc.misses, hacc.missed⟩

omit [Scalar F] in
/-- At most one sample in a hundred reaches a threshold that the reported p99 keeps. -/
theorem late_samples_le {outcome : RunOutcome F} {samples : List UInt64} {threshold : UInt64}
    (hrecorded : Recorded outcome samples) (hlength : samples.length < 2 ^ 32)
    (hbelow : threshold.toNat < overflowFloorUs.toNat) (hp99 : outcome.jitter.p99Us ≤ threshold) :
    100 * samples.countP (fun sample => threshold ≤ sample) ≤ samples.length := by
  by_cases hne : samples = []
  · rw [hne]
    exact Nat.le_refl 0
  obtain ⟨x, hx, hreport⟩ := hrecorded.p99 hne hlength
  rw [hreport, UInt64.le_iff_toNat_le] at hp99
  have hlt : x < threshold.toNat := by
    rcases Nat.lt_or_ge x overflowFloorUs.toNat with hx | hx
    · rw [JitterStats.upper_edge_below hx] at hp99
      omega
    · rw [JitterStats.upper_edge_overflow hx] at hp99
      omega
  have hpos := List.length_pos_of_ne_nil hne
  have hceil : (samples.length * 990) ⌈/⌉ 1000 = (samples.length * 990 + 999) / 1000 :=
    Nat.ceilDiv_eq_add_pred_div _ _
  have hdown : ∀ y z : Nat, y ≤ z → decide (z < threshold.toNat) = true →
      decide (y < threshold.toNat) = true := by
    intro y z hyz hz
    simp only [decide_eq_true_eq] at hz ⊢
    omega
  have hrank := (nearest_rank_iff (by omega) hx hdown).mp (decide_eq_true hlt)
  -- the samples below the threshold and the others make up all of them
  have hsplit := List.length_eq_countP_add_countP (fun sample => threshold ≤ sample)
    (l := samples)
  have hothers : samples.countP (fun sample => ¬ decide (threshold ≤ sample) = true) =
      (JitterStats.values samples).countP fun value => value < threshold.toNat := by
    rw [JitterStats.values, List.countP_map]
    refine List.countP_congr fun sample _ => ?_
    simp [UInt64.le_iff_toNat_le]
  omega

/-- What a passing run has kept, on every bus and with every punctual clock. At most one cycle in a
hundred started as late as the p99 threshold or later, as long as the threshold lies below the
overflow bucket; the cycles that ended past their deadline and the periods without a start are no
more than the missed deadlines tolerated; the counter of refused frames is no more than tolerated;
and nothing has tripped unless the gate lets it. -/
theorem passing_run_on_time (bus : β) {manifest : Manifest} (h : RunState.Punctual cfg clock)
    (hcycles : cfg.cycles.toNat < 2 ^ 32)
    (hmisses : (run bus cfg clock hogWindow : RunOutcome F).misses.length < 2 ^ 64)
    (hbelow : manifest.positiveGate.p99JitterUsMax.toNat < overflowFloorUs.toNat)
    (hpass : (evaluatePositiveGate (run bus cfg clock hogWindow : RunOutcome F)
      manifest).pass = true) :
    100 * Nat.count (fun i => i * cfg.periodUs.toNat +
        manifest.positiveGate.p99JitterUsMax.toNat ≤ RunState.startOf cfg clock i)
      cfg.cycles.toNat ≤ cfg.cycles.toNat ∧
    Nat.count (RunState.Late cfg clock) cfg.cycles.toNat +
        Occupancy.vacant (RunState.periodOf cfg clock) cfg.cycles.toNat ≤
      manifest.positiveGate.missedDeadlinesMax.toNat ∧
    (run bus cfg clock hogWindow : RunOutcome F).rejected ≤
      manifest.positiveGate.rejectedFramesMax ∧
    (manifest.positiveGate.watchdogMayTrip = true ∨
      (run bus cfg clock hogWindow : RunOutcome F).safeState = none) := by
  obtain ⟨hmissed, hp99, hrejected, htrip⟩ := (positive_gate_iff _ manifest).mp hpass
  obtain ⟨hlength, hcount⟩ := run_misses (F := F) hogWindow bus h
  refine ⟨?_, ?_, hrejected, htrip⟩
  · have hlate := late_samples_le (run_recorded (F := F) cfg clock hogWindow bus)
      (by simpa using hcycles) hbelow hp99
    rw [List.countP_map, List.length_map, List.length_range] at hlate
    refine le_of_eq_of_le (congrArg (100 * ·) (List.countP_congr fun i hi => ?_)) hlate
    have hi := List.mem_range.mp hi
    have hstart := h.scheduled i hi
    have hlateness : (RunState.lateness cfg clock i).toNat =
        RunState.startOf cfg clock i - i * cfg.periodUs.toNat := by
      rw [RunState.lateness, Watchdog.saturating_sub_toNat, (h.schedule hi).1]
      rfl
    simp only [decide_eq_true_eq, Function.comp_apply, UInt64.le_iff_toNat_le, hlateness]
    omega
  · rw [hcount, UInt64.le_iff_toNat_le, UInt64.toNat_ofNat_of_lt' hmisses] at hmissed
    rwa [← hlength]

/-- A gate that only looks at deadlines and wake jitter. -/
def timing (threshold : UInt64) : Manifest where
  positiveGate := ⟨0, threshold, 0xFFFFFFFF, true⟩
  negativeControls := []

/-- Two cycles of 10 µs, of which the second starts 3 µs late, and a threshold of 20 µs. -/
theorem passing_run_on_time_two :
    let cfg : RunConfig := ⟨2, 10, 80000, .realTime⟩
    let clock : Clock := ⟨fun i => 13 * i, fun i => 13 * i + 2⟩
    100 * Nat.count (fun i => i * 10 + 20 ≤ RunState.startOf cfg clock i) 2 ≤ 2 := by
  intro cfg clock
  have hnext : ∀ i < 1, RunState.endOf cfg clock i ≤ RunState.startOf cfg clock (i + 1) := by
    decide
  have h : RunState.Punctual cfg clock :=
    ⟨by decide, by decide, by decide, by decide,
      fun i hi => hnext i (Nat.lt_of_succ_lt_succ hi), by decide⟩
  let bus : SimBus ℚ := SimBus.new 7 .clean
  obtain ⟨hlength, hmissed⟩ := run_misses (F := ℚ) none bus h
  have hnone := hlength.trans (show _ = 0 by decide)
  have hrecorded := run_recorded (F := ℚ) cfg clock none bus
  have hpass : (evaluatePositiveGate (run bus cfg clock none : RunOutcome ℚ)
      (timing 20)).pass = true := by
    rw [positive_gate_iff, hmissed, hnone]
    refine ⟨by decide, ?_, ?_, .inl rfl⟩
    · obtain ⟨x, hx, hp99⟩ := hrecorded.p99 (by decide) (by decide)
      have hsamples : JitterStats.values ((List.range cfg.cycles.toNat).map
          (RunState.lateness cfg clock)) = [0, 3] := by decide
      have hmem : x = 0 ∨ x = 3 := by
        have hsample := List.mem_mergeSort.mp (List.mem_of_getElem? hx)
        simpa [hsamples] using hsample
      rw [hp99]
      obtain rfl | rfl := hmem <;> decide
    · rw [UInt32.le_iff_toNat_le]
      exact Nat.le_of_lt_succ (UInt32.toNat_lt _)
  exact (passing_run_on_time bus h (by decide) (by omega) (by decide) hpass).1

end Report

end Fieldbus
