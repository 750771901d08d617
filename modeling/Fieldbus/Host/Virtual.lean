import Fieldbus.Host.Gate
import Fieldbus.Host.Silence

/-!
# Runs in virtual time

In virtual time every cycle starts and ends on schedule, so nothing of a run is left to the clock:
it misses no deadline, records no wake jitter, trips in the first cycle that is more cycles away
from the last one in which the sensor was heard than the budget has periods, and refuses what the
schedule injects.
-/

namespace Fieldbus

open J1939 OrderStatistic

namespace FaultSchedule

variable (faults : FaultSchedule)

/-- Every cycle so far in which the sensor was heard lies more than the budget back. -/
def Starved (budget k : Nat) : Prop := budget < k ∧ ∀ j ≤ k, faults.Emits j → j + budget < k

instance (budget : Nat) : DecidablePred (faults.Starved budget) :=
  fun k => inferInstanceAs (Decidable (budget < k ∧ ∀ j, j ≤ k → _))

/-- The first cycle of a run that is starved. -/
def FirstStarved (budget k : Nat) : Prop :=
  faults.Starved budget k ∧ ∀ j < k, ¬ faults.Starved budget j

/-- The latest of the first cycles in which the sensor is heard, zero if there is none. -/
def lastHeard : Nat → Nat
  | 0 => 0
  | k + 1 => if faults.Emits k then k else lastHeard k

theorem last_heard_le (cycles : Nat) : faults.lastHeard cycles ≤ cycles := by
  induction cycles with
  | zero => exact Nat.le_refl 0
  | succ cycles ih =>
      rw [lastHeard]
      split <;> omega

variable {faults}

/-- The last cycle heard lies more than the budget back exactly if all do. -/
theorem last_heard_add_lt_iff (budget cycles k : Nat) :
    faults.lastHeard cycles + budget < k ↔
      budget < k ∧ ∀ j < cycles, faults.Emits j → j + budget < k := by
  induction cycles with
  | zero => simp [lastHeard]
  | succ cycles ih =>
      rw [lastHeard]
      by_cases hemit : faults.Emits cycles
      · rw [if_pos hemit]
        refine ⟨fun h => ⟨by omega, fun j hj _ => by omega⟩, fun h => ?_⟩
        exact h.2 cycles (by omega) hemit
      · rw [if_neg hemit, ih]
        refine and_congr_right fun _ => ⟨fun h j hj he => ?_, fun h j hj => h j (by omega)⟩
        rcases Nat.lt_succ_iff_lt_or_eq.mp hj with hj | rfl
        · exact h j hj he
        · exact absurd he hemit

theorem starved_iff (budget k : Nat) :
    faults.Starved budget k ↔ faults.lastHeard (k + 1) + budget < k := by
  rw [last_heard_add_lt_iff, Starved]
  simp only [Nat.lt_succ_iff]

/-- A cycle that is starved for the first time is so by one period. -/
theorem FirstStarved.last_heard {budget k : Nat} (h : faults.FirstStarved budget k) :
    faults.lastHeard (k + 1) + budget + 1 = k := by
  obtain ⟨hstarved, hbefore⟩ := h
  rw [starved_iff] at hstarved
  have hlast := hbefore (k - 1) (by omega)
  rw [starved_iff, show k - 1 + 1 = k by omega] at hlast
  have hle : faults.lastHeard k ≤ faults.lastHeard (k + 1) := by
    have hself := last_heard_le faults k
    rw [lastHeard]
    split <;> omega
  omega

end FaultSchedule

namespace RunState

/-- A run in virtual time whose times stay in range. -/
structure Virtual (cfg : RunConfig) : Prop where
  mode : cfg.mode = .virtual
  period : 0 < cfg.periodUs.toNat
  range : cfg.cycles.toNat * cfg.periodUs.toNat + cfg.watchdogTimeoutUs.toNat < 2 ^ 64

/-- The staleness budget in whole periods. -/
def budget (cfg : RunConfig) : Nat := cfg.watchdogTimeoutUs.toNat / cfg.periodUs.toNat

variable {faults : FaultSchedule} {cfg : RunConfig} {clock : Clock}

/-- In virtual time a cycle starts on schedule. -/
theorem Virtual.start_of (h : Virtual cfg) {k : Nat} (hk : k < cfg.cycles.toNat) :
    startOf cfg clock k = k * cfg.periodUs.toNat := by
  have hrange := h.range
  have hle : k * cfg.periodUs.toNat ≤ cfg.cycles.toNat * cfg.periodUs.toNat :=
    Nat.mul_le_mul_right _ hk.le
  rw [startOf, started, h.mode, scheduled, UInt64.toNat_mul,
    UInt64.toNat_ofNat_of_lt' (hk.trans cfg.cycles.toNat_lt), Nat.mod_eq_of_lt (by omega)]

theorem Virtual.end_of (h : Virtual cfg) {k : Nat} (hk : k < cfg.cycles.toNat) :
    endOf cfg clock k = k * cfg.periodUs.toNat := by
  have hsame : ended cfg clock (UInt64.ofNat k) = started cfg clock (UInt64.ofNat k) := by
    rw [ended, started, h.mode]
  rw [endOf, hsame]
  exact h.start_of hk

theorem Virtual.period_of (h : Virtual cfg) {k : Nat} (hk : k < cfg.cycles.toNat) :
    periodOf cfg clock k = k := by
  rw [periodOf, h.start_of hk, Nat.mul_div_cancel _ h.period]

theorem Virtual.forward (h : Virtual cfg) (clock : Clock) : Forward cfg clock := by
  refine ⟨fun i hi => ?_, fun i hi => ?_⟩
  · rw [h.start_of (by omega), h.start_of hi]
    exact Nat.mul_le_mul_right _ (Nat.le_succ i)
  · have hrange := h.range
    have hle : i * cfg.periodUs.toNat ≤ cfg.cycles.toNat * cfg.periodUs.toNat :=
      Nat.mul_le_mul_right _ hi.le
    rw [h.start_of hi]
    omega

theorem Virtual.punctual (h : Virtual cfg) (clock : Clock) : Punctual cfg clock where
  period := h.period
  deadlines := by
    have hrange := h.range
    omega
  scheduled := fun i hi => (h.start_of hi).ge
  ordered := fun i hi => by rw [h.start_of hi, h.end_of hi]
  next := fun i hi => by
    rw [h.end_of (by omega), h.start_of hi]
    exact Nat.mul_le_mul_right _ (Nat.le_succ i)
  range := fun i hi => by
    rw [h.period_of hi]
    exact Nat.lt_of_le_of_lt hi cfg.cycles.toNat_lt

/-- The time at which the sensor was last heard. -/
theorem Virtual.heard_at (h : Virtual cfg) {k : Nat} (hk : k ≤ cfg.cycles.toNat) :
    (heardAt faults cfg clock k).toNat = faults.lastHeard k * cfg.periodUs.toNat := by
  induction k with
  | zero => exact (Nat.zero_mul _).symm
  | succ k ih =>
      rw [heardAt, FaultSchedule.lastHeard]
      split
      · exact h.start_of hk
      · exact ih (by omega)

/-- A cycle is stale exactly if it is starved. -/
theorem Virtual.stale_iff (h : Virtual cfg) {k : Nat} (hk : k < cfg.cycles.toNat) :
    Stale faults cfg clock k ↔ faults.Starved (budget cfg) k := by
  rw [Stale, h.start_of hk, h.heard_at hk, ← Nat.sub_mul, ← Nat.div_lt_iff_lt_mul h.period,
    FaultSchedule.starved_iff, budget]
  exact Nat.lt_sub_iff_add_lt'

theorem Virtual.first_stale (h : Virtual cfg) (clock : Clock) {k : Nat}
    (hk : k < cfg.cycles.toNat) (hfirst : faults.FirstStarved (budget cfg) k) :
    FirstStale faults cfg clock k :=
  ⟨(h.stale_iff hk).mpr hfirst.1, fun j hj hstale =>
    hfirst.2 j hj ((h.stale_iff (by omega)).mp hstale)⟩

/-- A run in virtual time misses nothing. -/
theorem Virtual.misses (h : Virtual cfg) (clock : Clock) :
    Nat.count (Late cfg clock) cfg.cycles.toNat +
      Occupancy.vacant (periodOf cfg clock) cfg.cycles.toNat = 0 := by
  have hlate : Nat.count (Late cfg clock) cfg.cycles.toNat = 0 := by
    rw [Nat.count_eq_card_filter_range, Finset.card_eq_zero, Finset.filter_eq_empty_iff]
    intro i hi hlate
    rw [Late, h.end_of (Finset.mem_range.mp hi), Nat.succ_mul] at hlate
    omega
  have hvacant : Occupancy.vacant (periodOf cfg clock) cfg.cycles.toNat = 0 := by
    rw [Occupancy.vacant, Nat.count_eq_card_filter_range, Finset.card_eq_zero,
      Finset.filter_eq_empty_iff]
    intro s hs hfree
    -- up to the last start, the cycle with the number of a period is the one that starts in it
    have hlt : s < cfg.cycles.toNat := by
      have hmem := Finset.mem_range.mp hs
      cases hcycles : cfg.cycles.toNat with
      | zero =>
          rw [hcycles, Occupancy.frontier] at hmem
          omega
      | succ last =>
          rw [hcycles, Occupancy.frontier, h.period_of (by omega)] at hmem
          exact hmem
    exact hfree s hlt (h.period_of hlt)
  omega

/-- Every sample of a run in virtual time is zero. -/
theorem Virtual.lateness (h : Virtual cfg) (clock : Clock) (k : Nat) :
    lateness cfg clock k = 0 := by
  rw [← UInt64.toNat_inj, RunState.lateness, Watchdog.saturating_sub_toNat, started, h.mode]
  exact Nat.sub_self _

end RunState

/-! ## What a run refuses -/

namespace FaultSchedule

variable (faults : FaultSchedule)

/-- The number of frames injected in a cycle. -/
def injections (k : Nat) : Nat :=
  if faults.Emits k then (faults.reasons (UInt64.ofNat k) 0).length else 0

/-- The number of frames injected in the first cycles. -/
def injectedIn (cycles : Nat) : Nat := ∑ k ∈ Finset.range cycles, faults.injections k

variable {faults}

/-- How many reasons a cycle has does not depend on the number the sensor sends. -/
theorem reasons_length (cycle : UInt64) (seqNow : UInt8) :
    (faults.reasons cycle seqNow).length = (faults.reasons cycle 0).length := by
  simp only [reasons, List.length_append]
  congr 3
  split <;> rfl

end FaultSchedule

theorem J1939.Validator.refuse_all_rejected (v : Validator) (reasons : List Reject) :
    (v.refuseAll reasons).rejected = v.rejected + UInt32.ofNat reasons.length := by
  induction reasons generalizing v with
  | nil => simp [Validator.refuseAll]
  | cons r rest ih =>
      have hrest := ih (v.refuse r)
      rw [List.length_cons, UInt32.ofNat_add, UInt32.add_comm (UInt32.ofNat _), ← UInt32.add_assoc]
      exact hrest

namespace RunState

variable {F : Type} [Scalar F] [FiniteScalar F] {hogWindow : Option HogWindow}

/-- After any number of cycles as many frames have been refused as were injected. -/
theorem rejected_after (seed : UInt64) (faults : FaultSchedule) (cfg : RunConfig) (clock : Clock)
    (hogWindow : Option HogWindow) (cycles : Nat) :
    let l : RunState F (SimBus F) := after (SimBus.new seed faults) cfg clock hogWindow cycles
    l.node.validator.rejected = UInt32.ofNat (faults.injectedIn cycles) ∧
      l.rejected = l.node.validator.rejected := by
  induction cycles with
  | zero => exact ⟨rfl, rfl⟩
  | succ cycles ih =>
      obtain ⟨hreg, hcycle, hfaults⟩ :=
        regulated_after (F := F) seed faults cfg clock hogWindow cycles
      obtain ⟨-, -, -, hvalidator, -⟩ := hreg.next cfg clock hogWindow (UInt64.ofNat cycles)
      rw [after]
      refine ⟨?_, ?_⟩
      · rw [hvalidator, validatorAfter, hfaults, hcycle, FaultSchedule.injectedIn,
          Finset.sum_range_succ, UInt32.ofNat_add, ← FaultSchedule.injectedIn, ← ih.1,
          FaultSchedule.injections]
        by_cases hemit : faults.Emits cycles
        · rw [if_pos hemit, show faults.silent (UInt64.ofNat cycles) = false from hemit,
            if_neg (by simp), Validator.refuse_all_rejected, FaultSchedule.reasons_length]
          rfl
        · rw [if_neg hemit, if_pos (by simpa [FaultSchedule.Emits] using hemit)]
          simp
      · rw [(same_control_next _).rejected, (same_control_next _).node]
        rfl

end RunState

end Fieldbus
