import Mathlib.Data.Nat.Count
import Fieldbus.Host.ClosedLoop

/-!
# Exact fault attribution

A run of the node against the simulated bus accepts one frame for each cycle that emits, and refuses
one frame for each fault listed for such a cycle, under that fault's reason. `Counted` is the
invariant and `exact_fault_attribution` the statement about what a run reports.
-/

namespace Fieldbus

open J1939

namespace FaultSchedule

variable (faults : FaultSchedule)

/-- The sensor emits in the cycle with the given index: it is neither dropped nor frozen. -/
def Emits (k : Nat) : Prop := faults.silent (UInt64.ofNat k) = false

instance : DecidablePred faults.Emits := fun _ => inferInstanceAs (Decidable (_ = _))

/-- The cycle with the given index emits and is listed for a reason. -/
def Injects (r : Reject) (k : Nat) : Prop := faults.Emits k ∧ UInt64.ofNat k ∈ faults.listed r

instance (r : Reject) : DecidablePred (faults.Injects r) :=
  fun _ => inferInstanceAs (Decidable (_ ∧ _))

/-- The counters of a validator that has seen the given number of cycles. -/
structure Counted (cycles : Nat) (v : Validator) : Prop where
  accepted : v.accepted = UInt32.ofNat (Nat.count faults.Emits cycles)
  byReason : ∀ r : Reject,
    v.byReason.get r.index = UInt32.ofNat (Nat.count (faults.Injects r) cycles)

variable {faults}

/-- A reason nobody lists is never counted. -/
theorem count_injects_zero {r : Reject} (h : faults.listed r = ∅) (cycles : Nat) :
    Nat.count (faults.Injects r) cycles = 0 := by
  rw [Nat.count_eq_card_filter_range, Finset.card_eq_zero, Finset.filter_eq_empty_iff]
  intro k _ hk
  have hmem := hk.2
  rw [h] at hmem
  exact absurd hmem (Finset.notMem_empty _)

end FaultSchedule

variable {F : Type} [Scalar F] [FiniteScalar F]

namespace RunState

open FaultSchedule

omit [FiniteScalar F] in
/-- One more cycle is counted. -/
theorem counted_succ {l : RunState F (SimBus F)} {cycles : Nat}
    (hcycle : l.bus.cycle = UInt64.ofNat cycles)
    (h : l.bus.faults.Counted cycles l.node.validator) :
    l.bus.faults.Counted (cycles + 1) l.validatorAfter := by
  rw [validatorAfter, hcycle]
  by_cases hemit : l.bus.faults.Emits cycles
  · rw [if_neg (by rw [hemit]; exact Bool.false_ne_true)]
    refine ⟨?_, fun r => ?_⟩
    · simp [Nat.count_succ, hemit, h.accepted, UInt32.ofNat_add]
    · have hreason : l.node.validator.byReason[r.index] = _ := h.byReason r
      show (Validator.refuseAll _ _).byReason[r.index] = _
      rw [Validator.refuse_all_by_reason, reasons_count, Validator.accept_by_reason, hreason,
        Nat.count_succ, UInt32.ofNat_add]
      simp [Injects, hemit]
  -- a silent cycle injects nothing either, whatever it is listed for
  · have hsilent : l.bus.faults.silent (UInt64.ofNat cycles) = true := by
      simpa [Emits] using hemit
    rw [if_pos hsilent]
    refine ⟨?_, fun r => ?_⟩
    · simp [Nat.count_succ, hemit, h.accepted]
    · simp [Nat.count_succ, Injects, hemit, h.byReason]

/-- After any number of cycles everything is counted, and the loop reports the count. -/
theorem counted_after (seed : UInt64) (faults : FaultSchedule) (cfg : RunConfig) (clock : Clock)
    (hogWindow : Option HogWindow) (cycles : Nat) :
    let l : RunState F (SimBus F) := after (SimBus.new seed faults) cfg clock hogWindow cycles
    faults.Counted cycles l.node.validator ∧ l.accepted = l.node.validator.accepted := by
  induction cycles with
  | zero =>
      refine ⟨⟨by simp; rfl, fun r => ?_⟩, rfl⟩
      show (after _ cfg clock hogWindow 0).node.validator.byReason[r.index] = _
      simp [after, initial, ControlNode.withWatchdogTimeout, Validator.new]
  | succ cycles ih =>
      obtain ⟨hreg, hcycle, hfaults⟩ :=
        regulated_after (F := F) seed faults cfg clock hogWindow cycles
      obtain ⟨-, -, -, hvalidator, haccepted⟩ :=
        hreg.next cfg clock hogWindow (UInt64.ofNat cycles)
      have hcounted := counted_succ hcycle (by rw [hfaults]; exact ih.1)
      rw [hfaults] at hcounted
      refine ⟨?_, ?_⟩
      · rw [after, hvalidator]
        exact hcounted
      · rw [after, hvalidator, haccepted]

/-- The verdicts of a cycle: nothing on silence, else one acceptance and one refusal for each fault
listed for the cycle. -/
theorem Regulated.trace_received {l : RunState F (SimBus F)} (h : Regulated l)
    (deadlineUs : UInt64) :
    Machine.trace Validator.validate l.node.validator (l.received deadlineUs) =
      if l.bus.faults.silent l.bus.cycle then []
      else .ok l.goodPayload :: (l.bus.faults.reasons l.bus.cycle l.bus.seq).map .error := by
  cases hemit : l.bus.faults.silent l.bus.cycle with
  | false => exact (h.emission hemit deadlineUs).2.2
  | true => rw [received, SimBus.recv_silent hemit]; rfl

end RunState

/-- Exact fault attribution in closed loop, with `f32` as exact rationals. For every seed, fault
schedule, budget, period, clock (virtual or not) and number of cycles that a `u32` can count, a run
accepts one frame for each cycle that emits and refuses, under each reason, one frame for each
emitting cycle listed for it; the other three reasons stay at zero. Cycle by cycle, the legitimate
frame is accepted and each injected frame refused once, also after the safe state latched. -/
theorem exact_fault_attribution (seed : UInt64) (faults : FaultSchedule) (cfg : RunConfig)
    (clock : Clock) (hogWindow : Option HogWindow) (hcycles : cfg.cycles.toNat < 2 ^ 32) :
    let states : Nat → RunState ℚ (SimBus ℚ) :=
      RunState.after (SimBus.new seed faults) cfg clock hogWindow
    let outcome : RunOutcome ℚ := run (SimBus.new seed faults : SimBus ℚ) cfg clock hogWindow
    outcome.accepted.toNat = Nat.count faults.Emits cfg.cycles.toNat ∧
      (∀ r : Reject, outcome.rejectedByReason[r.index].toNat =
        Nat.count (faults.Injects r) cfg.cycles.toNat) ∧
      (∀ r ∈ [Reject.unknownPgn, .unexpectedSource, .badReserved],
        outcome.rejectedByReason[r.index] = 0) ∧
      ∀ k < cfg.cycles.toNat, ∀ deadlineUs,
        Machine.trace Validator.validate (states k).node.validator
            ((states k).received deadlineUs) =
          if faults.silent (UInt64.ofNat k) then []
          else .ok (states k).goodPayload ::
            (faults.reasons (UInt64.ofNat k) (states k).bus.seq).map .error := by
  intro states outcome
  obtain ⟨hcounted, haccepted⟩ :=
    RunState.counted_after (F := ℚ) seed faults cfg clock hogWindow cfg.cycles.toNat
  have hsmall : ∀ (p : Nat → Prop) [DecidablePred p],
      (UInt32.ofNat (Nat.count p cfg.cycles.toNat)).toNat = Nat.count p cfg.cycles.toNat :=
    fun p _ => UInt32.toNat_ofNat_of_lt' ((Nat.count_le _).trans_lt hcycles)
  have hreason : ∀ r : Reject, outcome.rejectedByReason[r.index] =
      UInt32.ofNat (Nat.count (faults.Injects r) cfg.cycles.toNat) := hcounted.byReason
  refine ⟨?_, fun r => ?_, fun r hr => ?_, fun k _ deadlineUs => ?_⟩
  · rw [show outcome.accepted = _ from haccepted.trans hcounted.accepted, hsmall]
  · rw [hreason, hsmall]
  · have hlisted : faults.listed r = ∅ := by
      rcases List.mem_cons.mp hr with rfl | hr
      · rfl
      rcases List.mem_cons.mp hr with rfl | hr
      · rfl
      obtain rfl := List.mem_singleton.mp hr
      rfl
    rw [hreason, FaultSchedule.count_injects_zero hlisted]
    rfl
  · obtain ⟨hreg, hcycle, hfaults⟩ :=
      RunState.regulated_after (F := ℚ) seed faults cfg clock hogWindow k
    have htrace := hreg.trace_received deadlineUs
    rw [hcycle, hfaults] at htrace
    exact htrace

/-- Four cycles, the second with a bad CRC and an early number, the third dropped. -/
theorem exact_fault_attribution_four :
    let faults : FaultSchedule :=
      { FaultSchedule.clean with badCrc := {1, 2}, outOfOrder := {1}, dropped := {2} }
    let outcome : RunOutcome ℚ := run (SimBus.new 7 faults : SimBus ℚ)
      ⟨4, 10000, 80000, .virtual⟩ ⟨id, id⟩ none
    outcome.accepted.toNat = 3 ∧ outcome.rejectedByReason[Reject.badCrc.index].toNat = 1 := by
  intro faults outcome
  obtain ⟨haccepted, hreasons, -⟩ := exact_fault_attribution 7 faults
    ⟨4, 10000, 80000, .virtual⟩ ⟨id, id⟩ none (by decide)
  refine ⟨haccepted.trans ?_, (hreasons .badCrc).trans ?_⟩
  · decide
  · decide

end Fieldbus
