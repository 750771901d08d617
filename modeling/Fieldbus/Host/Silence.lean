import Fieldbus.Host.Attribution
import Fieldbus.Host.Deadlines
import Fieldbus.Host.Latch

/-!
# When a run trips

The run of the node against the simulated bus, with the cycles in which the sensor is heard read
off the fault schedule. `heardAt` is the time the watchdog of a run stands at up to the first stale
cycle (`watchdog_after`), and `run_trips_iff` says that this is the cycle a run reports.
-/

namespace Fieldbus

open J1939

namespace RunState

/-! ## The schedule's clock -/

section Times

variable (faults : FaultSchedule) (cfg : RunConfig) (clock : Clock)

/-- The start of the latest of the first `k` cycles in which the sensor is heard, zero if none. -/
def heardAt : Nat → UInt64
  | 0 => 0
  | k + 1 => if faults.Emits k then started cfg clock (UInt64.ofNat k) else heardAt k

/-- The cycle starts more than the budget after the sensor was last heard. -/
def Stale (k : Nat) : Prop :=
  cfg.watchdogTimeoutUs.toNat < startOf cfg clock k - (heardAt faults cfg clock (k + 1)).toNat

instance : DecidablePred (Stale faults cfg clock) := fun _ => inferInstanceAs (Decidable (_ < _))

/-- The clock does not go back in the course of a run, and the deadlines of the watchdog stay in
range. -/
structure Forward : Prop where
  ordered : ∀ i, i + 1 < cfg.cycles.toNat → startOf cfg clock i ≤ startOf cfg clock (i + 1)
  range : ∀ i < cfg.cycles.toNat, startOf cfg clock i + cfg.watchdogTimeoutUs.toNat < 2 ^ 64

end Times

variable {faults : FaultSchedule} {cfg : RunConfig} {clock : Clock}

/-- The sensor was heard no later than the cycle starts. -/
theorem Forward.heard_le (h : Forward cfg clock) {k : Nat} (hk : k < cfg.cycles.toNat) :
    (heardAt faults cfg clock k).toNat ≤ startOf cfg clock k := by
  induction k with
  | zero => exact Nat.zero_le _
  | succ k ih =>
      rw [heardAt]
      split
      · exact h.ordered k hk
      · exact (ih (by omega)).trans (h.ordered k hk)

/-- The same up to and including the cycle. -/
theorem Forward.heard_succ_le (h : Forward cfg clock) {k : Nat} (hk : k < cfg.cycles.toNat) :
    (heardAt faults cfg clock (k + 1)).toNat ≤ startOf cfg clock k := by
  rw [heardAt]
  split
  · exact Nat.le_refl _
  · exact h.heard_le hk

/-! ## The watchdog of a run -/

variable {F : Type} [Scalar F] [FiniteScalar F] {hogWindow : Option HogWindow}
variable {l : RunState F (SimBus F)}

/-- A cycle accepts a frame exactly when it is not silent. -/
theorem Regulated.accepted_payloads (h : Regulated l) (deadlineUs : UInt64) :
    l.node.validator.acceptedPayloads (l.received deadlineUs) =
      if l.bus.faults.silent l.bus.cycle then [] else [l.goodPayload] := by
  rw [Validator.acceptedPayloads, h.trace_received]
  split
  · rfl
  · have hnone : ((l.bus.faults.reasons l.bus.cycle l.bus.seq).map
        (Except.error : Reject → Except Reject Payload)).filterMap Except.toOption = [] := by
      rw [List.filterMap_map, List.filterMap_eq_nil_iff]
      intro r _
      rfl
    exact congrArg _ hnone

/-- The watchdog of a run that has not tripped before the cycle: the cycle leaves it at the time the
sensor was last heard, and latches it if that is stale. -/
theorem watchdog_next (h : Forward cfg clock) (seed : UInt64) {k : Nat} (hk : k < cfg.cycles.toNat)
    (hwatchdog : (after (SimBus.new seed faults) cfg clock hogWindow k :
      RunState F (SimBus F)).node.watchdog =
        ⟨cfg.watchdogTimeoutUs, heardAt faults cfg clock k, none⟩) :
    (after (SimBus.new seed faults) cfg clock hogWindow (k + 1) :
      RunState F (SimBus F)).node.watchdog =
        ⟨cfg.watchdogTimeoutUs, heardAt faults cfg clock (k + 1),
          if Stale faults cfg clock k then
            some ⟨.sensorStale (heardAt faults cfg clock (k + 1))
              (started cfg clock (UInt64.ofNat k)) cfg.watchdogTimeoutUs⟩
          else none⟩ := by
  obtain ⟨hreg, hcycle, hfaults⟩ := regulated_after (F := F) seed faults cfg clock hogWindow k
  rw [after]
  generalize (after (SimBus.new seed faults) cfg clock hogWindow k : RunState F (SimBus F)) = l at *
  have hheard : (heardAt faults cfg clock k).toNat ≤ startOf cfg clock k := h.heard_le hk
  have hsucc : (heardAt faults cfg clock (k + 1)).toNat ≤ startOf cfg clock k :=
    h.heard_succ_le hk
  have hrange := h.range k hk
  have hreception : (l.node.reception (started cfg clock (UInt64.ofNat k))
      (l.received (scheduled cfg (UInt64.ofNat k) + cfg.periodUs))).watchdog =
        ⟨cfg.watchdogTimeoutUs, heardAt faults cfg clock (k + 1), none⟩ := by
    rw [ControlNode.reception_watchdog, hreg.accepted_payloads, hfaults, hcycle, heardAt]
    by_cases hemit : faults.Emits k
    · have hle : l.node.watchdog.lastSeenUs ≤ started cfg clock (UInt64.ofNat k) := by
        rw [hwatchdog, UInt64.le_iff_toNat_le]
        exact hheard
      rw [if_pos hemit, show faults.silent (UInt64.ofNat k) = false from hemit, if_neg (by simp),
        Watchdog.feed_eq hle, hwatchdog]
    · have hsilent : faults.silent (UInt64.ofNat k) = true := by
        simpa [FaultSchedule.Emits] using hemit
      rw [if_neg hemit, hsilent, if_pos (by simp), hwatchdog]
  rw [(same_control_next _).node, work_node, ControlNode.step_watchdog]
  show ((l.node.reception (started cfg clock (UInt64.ofNat k))
    (l.received (scheduled cfg (UInt64.ofNat k) + cfg.periodUs))).watchdog.check _).1 = _
  have hstale : Stale faults cfg clock k ↔ (heardAt faults cfg clock (k + 1)).toNat +
      cfg.watchdogTimeoutUs.toNat < (started cfg clock (UInt64.ofNat k)).toNat := by
    unfold Stale startOf
    omega
  rw [startOf] at hsucc hrange
  rw [hreception, Watchdog.check_unlatched (by omega)]
  by_cases hlate : Stale faults cfg clock k
  · rw [if_pos hlate, if_pos (hstale.mp hlate)]
  · rw [if_neg hlate, if_neg (hstale.not.mp hlate)]

variable (hogWindow) in
/-- As long as no cycle was stale, nothing has latched. -/
theorem watchdog_after (h : Forward cfg clock) (seed : UInt64) {k : Nat} (hk : k ≤ cfg.cycles.toNat)
    (hfresh : ∀ j < k, ¬ Stale faults cfg clock j) :
    (after (SimBus.new seed faults) cfg clock hogWindow k :
      RunState F (SimBus F)).node.watchdog =
        ⟨cfg.watchdogTimeoutUs, heardAt faults cfg clock k, none⟩ := by
  induction k with
  | zero => rfl
  | succ k ih =>
      have hnext := watchdog_next h seed hk (ih (by omega) fun j hj => hfresh j (by omega))
      rwa [if_neg (hfresh k (by omega))] at hnext

/-- The first stale cycle of a run. -/
def FirstStale (faults : FaultSchedule) (cfg : RunConfig) (clock : Clock) (k : Nat) : Prop :=
  Stale faults cfg clock k ∧ ∀ j < k, ¬ Stale faults cfg clock j

/-- A run with a stale cycle reports the first one and its times. -/
theorem trips_at (h : Forward cfg clock) (seed : UInt64) {k : Nat} (hk : k < cfg.cycles.toNat)
    (hfirst : FirstStale faults cfg clock k) :
    let l : RunState F (SimBus F) :=
      after (SimBus.new seed faults) cfg clock hogWindow cfg.cycles.toNat
    l.tripCycle = some (UInt64.ofNat k) ∧
      l.safeState = some ⟨.sensorStale (heardAt faults cfg clock (k + 1))
        (started cfg clock (UInt64.ofNat k)) cfg.watchdogTimeoutUs⟩ := by
  intro l
  obtain ⟨hstale, hfresh⟩ := hfirst
  have hbefore := watchdog_after (F := F) hogWindow h seed hk.le hfresh
  have hlatch := watchdog_next h seed hk hbefore
  rw [if_pos hstale] at hlatch
  have hnode : l.node.safeState = some ⟨.sensorStale (heardAt faults cfg clock (k + 1))
      (started cfg clock (UInt64.ofNat k)) cfg.watchdogTimeoutUs⟩ :=
    after_latch_mono hk (congrArg Watchdog.latched hlatch)
  have htracked : Tracked l := after_tracked _ _
  refine ⟨?_, htracked.safeState.trans hnode⟩
  obtain ⟨first, htrip⟩ := Option.isSome_iff_exists.mp (by rw [htracked.tripCycle, hnode]; rfl)
  obtain ⟨index, hindex, rfl, hquiet, hlatched⟩ := after_trip_first htrip
  -- the cycle reported is the first that latched, and nothing latched before the first stale one
  have hge : k ≤ index := by
    by_contra hlt
    have hnone := watchdog_after (F := F) hogWindow h seed (k := index + 1) (by omega)
      fun j hj => hfresh j (by omega)
    rw [ControlNode.safeState, hnone] at hlatched
    cases hlatched
  have hle : index ≤ k := by
    by_contra hlt
    have hsome := hquiet (k + 1) (by omega)
    rw [ControlNode.safeState, hlatch] at hsome
    cases hsome
  rw [htrip, Nat.le_antisymm hle hge]

/-- A run without a stale cycle reports no trip. -/
theorem not_trips (h : Forward cfg clock) (seed : UInt64)
    (hfresh : ∀ k < cfg.cycles.toNat, ¬ Stale faults cfg clock k) :
    let l : RunState F (SimBus F) :=
      after (SimBus.new seed faults) cfg clock hogWindow cfg.cycles.toNat
    l.tripCycle = none ∧ l.safeState = none := by
  intro l
  have hwatchdog := watchdog_after (F := F) hogWindow h seed (Nat.le_refl _) hfresh
  have htracked : Tracked l := after_tracked _ _
  have hnode : l.node.safeState = none := congrArg Watchdog.latched hwatchdog
  refine ⟨?_, htracked.safeState.trans hnode⟩
  have hnone := htracked.tripCycle
  rwa [hnode, Option.isSome_none, Option.isSome_eq_false_iff, Option.isNone_iff_eq_none] at hnone

/-- There is a first stale cycle, or none is stale. -/
theorem first_stale_or (faults : FaultSchedule) (cfg : RunConfig) (clock : Clock) (cycles : Nat) :
    (∃ k < cycles, FirstStale faults cfg clock k) ∨ ∀ k < cycles, ¬ Stale faults cfg clock k := by
  by_cases hall : ∀ k < cycles, ¬ Stale faults cfg clock k
  · exact .inr hall
  · push Not at hall
    have hmin := Nat.find_spec hall
    refine .inl ⟨Nat.find hall, hmin.1, hmin.2, fun j hj hstale => ?_⟩
    exact Nat.find_min hall hj ⟨hj.trans hmin.1, hstale⟩

end RunState

variable {F : Type} [Scalar F] [FiniteScalar F]

/-- What a run reports whose first stale cycle is known. -/
theorem run_trips_at (seed : UInt64) {faults : FaultSchedule} {cfg : RunConfig} {clock : Clock}
    (h : RunState.Forward cfg clock) (hogWindow : Option HogWindow) {k : Nat}
    (hk : k < cfg.cycles.toNat) (hfirst : RunState.FirstStale faults cfg clock k) :
    let outcome : RunOutcome F := run (SimBus.new seed faults : SimBus F) cfg clock hogWindow
    outcome.tripCycle = some (UInt64.ofNat k) ∧
      outcome.safeState = some ⟨.sensorStale (RunState.heardAt faults cfg clock (k + 1))
        (RunState.started cfg clock (UInt64.ofNat k)) cfg.watchdogTimeoutUs⟩ :=
  RunState.trips_at h seed hk hfirst

/-- A run that reports no safe state has no stale cycle. -/
theorem run_untripped_iff (seed : UInt64) (faults : FaultSchedule) {cfg : RunConfig}
    {clock : Clock} (h : RunState.Forward cfg clock) (hogWindow : Option HogWindow) :
    (run (SimBus.new seed faults : SimBus F) cfg clock hogWindow : RunOutcome F).safeState = none ↔
      ∀ k < cfg.cycles.toNat, ¬ RunState.Stale faults cfg clock k := by
  constructor
  · intro hsafe
    obtain ⟨k, hk, hfirst⟩ | hnone := RunState.first_stale_or faults cfg clock cfg.cycles.toNat
    · have htrip := (run_trips_at (F := F) seed h hogWindow hk hfirst).2
      rw [hsafe] at htrip
      cases htrip
    · exact hnone
  · exact fun hnone => (RunState.not_trips h seed hnone).2

/-- When a run trips, read off the fault schedule and the clock. For every seed, schedule, budget
and arithmetic, and every clock that does not go back and keeps the deadlines in range, a run
reports the first cycle that starts more than the budget after the start of the last cycle in which
the sensor was heard, with these two times, and no other cycle; and it reports no safe state exactly
when there is no such cycle. -/
theorem run_trips_iff (seed : UInt64) (faults : FaultSchedule) {cfg : RunConfig} {clock : Clock}
    (h : RunState.Forward cfg clock) (hogWindow : Option HogWindow) :
    let outcome : RunOutcome F := run (SimBus.new seed faults : SimBus F) cfg clock hogWindow
    (∀ k < cfg.cycles.toNat, outcome.tripCycle = some (UInt64.ofNat k) ↔
      RunState.FirstStale faults cfg clock k) ∧
    (∀ k < cfg.cycles.toNat, RunState.FirstStale faults cfg clock k →
      outcome.safeState = some ⟨.sensorStale (RunState.heardAt faults cfg clock (k + 1))
        (RunState.started cfg clock (UInt64.ofNat k)) cfg.watchdogTimeoutUs⟩) ∧
    (outcome.safeState = none ↔
      ∀ k < cfg.cycles.toNat, ¬ RunState.Stale faults cfg clock k) := by
  intro outcome
  have htrips (k : Nat) (hk : k < cfg.cycles.toNat)
      (hfirst : RunState.FirstStale faults cfg clock k) :=
    run_trips_at (F := F) seed h hogWindow hk hfirst
  refine ⟨fun k hk => ⟨fun htrip => ?_, fun hfirst => (htrips k hk hfirst).1⟩,
    fun k hk hfirst => (htrips k hk hfirst).2, run_untripped_iff seed faults h hogWindow⟩
  obtain ⟨k', hk', hfirst⟩ | hnone := RunState.first_stale_or faults cfg clock cfg.cycles.toNat
  · have hsame := congrArg UInt64.toNat
      (Option.some.inj (htrip.symm.trans (htrips k' hk' hfirst).1))
    rw [UInt64.toNat_ofNat_of_lt' (hk.trans cfg.cycles.toNat_lt),
      UInt64.toNat_ofNat_of_lt' (hk'.trans cfg.cycles.toNat_lt)] at hsame
    rwa [hsame]
  · have hquiet : outcome.tripCycle = none := (RunState.not_trips h seed hnone).1
    rw [hquiet] at htrip
    cases htrip

/-- A sensor that stops after the first of four cycles, which start at 0, 10, 25 and 31 µs, with a
budget of 15 µs. -/
theorem run_trips_third_cycle :
    let cfg : RunConfig := ⟨4, 10, 15, .realTime⟩
    let clock : Clock := ⟨fun i => if i < 2 then 10 * i else 13 + 6 * i, id⟩
    (run (SimBus.new 7 { FaultSchedule.clean with freezeAt := some 1 } : SimBus ℚ) cfg clock none :
      RunOutcome ℚ).tripCycle = some 2 := by
  intro cfg clock
  have hordered : ∀ i < 3, RunState.startOf cfg clock i ≤ RunState.startOf cfg clock (i + 1) := by
    decide
  have h : RunState.Forward cfg clock :=
    ⟨fun i hi => hordered i (Nat.lt_of_succ_lt_succ hi), by decide⟩
  exact ((run_trips_iff (F := ℚ) 7 _ h none).1 2 (by decide)).mpr ⟨by decide, by decide⟩

end Fieldbus
