import Fieldbus.Core.Noninterference
import Fieldbus.Host.ClosedLoop

/-!
# A corrupted run is the clean run plus rejections

As long as a fault schedule neither drops nor freezes a cycle, the run with it and the run on a
clean bus with the same seed stay in lockstep: `CleanLoop` relates the two loops, whose nodes differ
in the rejection counters only because the clean bus delivers exactly the frames that the other
run's validator accepts. `corrupted_run_is_clean_run` states it for frames, commands, actuator and
plant of every cycle and for everything a run reports.
-/

namespace Fieldbus

open J1939

variable {F : Type} [Scalar F] [FiniteScalar F]

namespace RunState

/-- The loop `m` on the clean bus: the loop `l` with a clean schedule and no rejections. -/
structure CleanLoop (l m : RunState F (SimBus F)) : Prop where
  node : ControlNode.PurgedNode l.node m.node
  rest : m = { l with bus := { l.bus with faults := .clean }, node := m.node, rejected := 0 }

variable {l m : RunState F (SimBus F)}

omit [Scalar F] [FiniteScalar F] in
theorem CleanLoop.bus (h : CleanLoop l m) : m.bus = { l.bus with faults := .clean } := by
  rw [h.rest]

/-- A clean schedule is silent in no cycle. -/
theorem clean_not_silent (cycle : UInt64) : FaultSchedule.clean.silent cycle = false := by
  simp [FaultSchedule.clean, FaultSchedule.silent]

omit [FiniteScalar F] in
/-- The sensor reads the same value on both buses. -/
theorem CleanLoop.goodFrame (h : CleanLoop l m) : m.bus.goodFrame = l.bus.goodFrame := by
  rw [h.bus]
  rfl

omit [FiniteScalar F] in
/-- On the clean bus a cycle receives the legitimate frame alone. -/
theorem CleanLoop.received (h : CleanLoop l m) (deadlineUs : UInt64) :
    m.received deadlineUs = [l.bus.goodFrame] := by
  have hemit : m.bus.faults.silent m.bus.cycle = false := by
    rw [h.bus]
    exact clean_not_silent _
  rw [RunState.received, SimBus.recv_emitted hemit, h.goodFrame, h.bus]
  simp [FaultSchedule.injected, FaultSchedule.clean]

omit [FiniteScalar F] in
/-- Both buses advance alike in a cycle that emits. -/
theorem CleanLoop.recv_bus (h : CleanLoop l m) (hemit : l.bus.faults.silent l.bus.cycle = false)
    (deadlineUs : UInt64) :
    (m.bus.recvUntil deadlineUs).1 = { (l.bus.recvUntil deadlineUs).1 with faults := .clean } := by
  have hemit' : m.bus.faults.silent m.bus.cycle = false := by
    rw [h.bus]
    exact clean_not_silent _
  rw [SimBus.recv_emitted hemit', SimBus.recv_emitted hemit, h.bus]

/-- The steps of both nodes in a cycle that emits. -/
theorem CleanLoop.stepped (h : CleanLoop l m) (hreg : Regulated l)
    (hemit : l.bus.faults.silent l.bus.cycle = false) (deadlineUs startUs : UInt64) :
    ControlNode.PurgedNode (l.stepped deadlineUs startUs).1 (m.stepped deadlineUs startUs).1 ∧
      (m.stepped deadlineUs startUs).2 =
        { (l.stepped deadlineUs startUs).2 with rejected := 0 } := by
  -- what is left of the corrupted cycle is what the clean bus delivers
  have hstep := h.node.step startUs (l.received deadlineUs)
  rwa [(hreg.emission hemit deadlineUs).2.1, ← h.received deadlineUs] at hstep

omit [FiniteScalar F] in
/-- The plant answers a command alike on both buses. -/
theorem send_clean (b : SimBus F) (frame : Frame) :
    ({ b with faults := .clean } : SimBus F).send frame =
      ({ (b.send frame).1 with faults := .clean }, (b.send frame).2) := by
  simp only [SimBus.send]
  split <;> rfl

/-- The work of a cycle that emits keeps the loops in lockstep. -/
theorem CleanLoop.work (h : CleanLoop l m) (hreg : Regulated l)
    (hemit : l.bus.faults.silent l.bus.cycle = false) (cfg : RunConfig)
    (cycle scheduledUs startUs : UInt64) :
    CleanLoop (l.work cfg cycle scheduledUs startUs) (m.work cfg cycle scheduledUs startUs) := by
  obtain ⟨hnode, hout⟩ := h.stepped hreg hemit (scheduledUs + cfg.periodUs) startUs
  have hbus := h.recv_bus hemit (scheduledUs + cfg.periodUs)
  refine ⟨hnode, ?_⟩
  have hstep : m.node.step startUs (CanBus.recvUntil m.bus (scheduledUs + cfg.periodUs)).2 =
      ((m.stepped (scheduledUs + cfg.periodUs) startUs).1,
        { (l.stepped (scheduledUs + cfg.periodUs) startUs).2 with rejected := 0 }) :=
    Prod.ext rfl hout
  have hrecv : (CanBus.recvUntil m.bus (scheduledUs + cfg.periodUs)).1 =
      { (l.bus.recvUntil (scheduledUs + cfg.periodUs)).1 with faults := .clean } := hbus
  simp only [RunState.work, hstep, hrecv]
  rw [h.rest]
  congr 1
  exact congrArg Prod.fst (send_clean (l.bus.recvUntil (scheduledUs + cfg.periodUs)).1 _)

omit [Scalar F] [FiniteScalar F] in
/-- Recording misses keeps the loops in lockstep. -/
theorem CleanLoop.misses (h : CleanLoop l m) (inWindow : Bool) (miss : Nat → Miss)
    (indices : List Nat) :
    CleanLoop (indices.foldl (fun l k => l.addMiss inWindow (miss k)) l)
      (indices.foldl (fun l k => l.addMiss inWindow (miss k)) m) := by
  induction indices generalizing l m with
  | nil => exact h
  | cons k rest ih => exact ih ⟨h.node, by rw [h.rest]; rfl⟩

omit [Scalar F] [FiniteScalar F] in
theorem CleanLoop.accountStart (h : CleanLoop l m) (cfg : RunConfig) (inWindow : Bool)
    (cycle startUs jitterUs : UInt64) :
    CleanLoop (l.accountStart cfg inWindow cycle startUs jitterUs)
      (m.accountStart cfg inWindow cycle startUs jitterUs) := by
  have hledger : m.ledger = l.ledger := by rw [h.rest]
  unfold RunState.accountStart
  simp only [hledger]
  refine CleanLoop.misses ?_ _ _ _
  exact ⟨h.node, by rw [h.rest]⟩

omit [Scalar F] [FiniteScalar F] in
theorem CleanLoop.accountEnd (h : CleanLoop l m) (cfg : RunConfig) (inWindow : Bool)
    (cycle scheduledUs startUs jitterUs endUs : UInt64) :
    CleanLoop (l.accountEnd cfg inWindow cycle scheduledUs startUs jitterUs endUs)
      (m.accountEnd cfg inWindow cycle scheduledUs startUs jitterUs endUs) := by
  unfold RunState.accountEnd
  dsimp only
  split
  · exact ⟨h.node, by rw [h.rest]; rfl⟩
  · exact h

/-- A cycle that emits keeps the loops in lockstep. -/
theorem CleanLoop.next (h : CleanLoop l m) (hreg : Regulated l)
    (hemit : l.bus.faults.silent l.bus.cycle = false) (cfg : RunConfig) (clock : Clock)
    (hogWindow : Option HogWindow) (cycle : UInt64) :
    CleanLoop (l.next cfg clock hogWindow cycle) (m.next cfg clock hogWindow cycle) := by
  have hsame : SameControl (l.accountStart cfg (inWindow hogWindow cycle) cycle
      (started cfg clock cycle)
      (Watchdog.saturatingSub (started cfg clock cycle) (scheduled cfg cycle))) l :=
    same_control_start _ _ _ _
  have hstart := h.accountStart cfg (inWindow hogWindow cycle) cycle (started cfg clock cycle)
    (Watchdog.saturatingSub (started cfg clock cycle) (scheduled cfg cycle))
  -- the invariant is about the control state, which the accounting before the work has not moved
  refine (hstart.work ⟨?_, ?_, ?_⟩ ?_ cfg cycle _ _).accountEnd cfg _ _ _ _ _ _
  · rw [hsame.bus]
    exact hreg.plant
  · rw [hsame.node]
    exact hreg.limited
  · rw [hsame.node, hsame.bus]
    exact hreg.sequence
  · rw [hsame.bus]
    exact hemit

/-- The runs are in lockstep as long as the schedule was never silent. -/
theorem clean_loop_after (seed : UInt64) (faults : FaultSchedule) (cfg : RunConfig)
    (clock : Clock) (hogWindow : Option HogWindow) {cycles : Nat}
    (hemit : ∀ k < cycles, faults.silent (UInt64.ofNat k) = false) :
    CleanLoop (after (SimBus.new seed faults : SimBus F) cfg clock hogWindow cycles)
      (after (SimBus.new seed .clean) cfg clock hogWindow cycles) := by
  induction cycles with
  | zero => exact ⟨⟨⟨rfl, rfl, rfl, rfl⟩, rfl⟩, rfl⟩
  | succ cycles ih =>
      obtain ⟨hreg, hcycle, hfaults⟩ :=
        regulated_after (F := F) seed faults cfg clock hogWindow cycles
      refine (ih fun k hk => hemit k (by omega)).next hreg ?_ cfg clock hogWindow _
      rw [hcycle, hfaults]
      exact hemit cycles (by omega)

end RunState

/-- A corrupted run is the clean run plus rejections. In every cycle before the first that the
schedule drops or freezes, the legitimate sensor frame, the command, the actuator and the plant
before and after are those of the run on a clean bus with the same seed; and a schedule that is
silent in no cycle of the run changes nothing in the report but the rejection counters, which the
clean run leaves at zero. The arithmetic is any whose results are finite, exact or rounded, and the
clock is virtual or any other that both runs share. -/
theorem corrupted_run_is_clean_run (seed : UInt64) (faults : FaultSchedule) (cfg : RunConfig)
    (clock : Clock) (hogWindow : Option HogWindow) :
    let states : Nat → RunState F (SimBus F) :=
      RunState.after (SimBus.new seed faults) cfg clock hogWindow
    let clean : Nat → RunState F (SimBus F) :=
      RunState.after (SimBus.new seed .clean) cfg clock hogWindow
    let outcome : RunOutcome F := run (SimBus.new seed faults : SimBus F) cfg clock hogWindow
    let cleanOutcome : RunOutcome F := run (SimBus.new seed .clean : SimBus F) cfg clock hogWindow
    (∀ k, (∀ j ≤ k, faults.silent (UInt64.ofNat j) = false) → ∀ deadlineUs startUs,
      (clean k).bus.goodFrame = (states k).bus.goodFrame ∧
        (clean k).received deadlineUs = [(states k).bus.goodFrame] ∧
        ((states k).received deadlineUs).head? = some (states k).bus.goodFrame ∧
        ((clean k).stepped deadlineUs startUs).2 =
          { ((states k).stepped deadlineUs startUs).2 with rejected := 0 } ∧
        (clean k).bus.plant = (states k).bus.plant ∧
        (clean (k + 1)).bus.plant = (states (k + 1)).bus.plant) ∧
    ((∀ k < cfg.cycles.toNat, faults.silent (UInt64.ofNat k) = false) →
      cleanOutcome = { outcome with rejected := 0, rejectedByReason := .replicate 8 0 }) := by
  intro states clean outcome cleanOutcome
  refine ⟨fun k hemit deadlineUs startUs => ?_, fun hemit => ?_⟩
  · obtain ⟨hreg, hcycle, hfaults⟩ :=
      RunState.regulated_after (F := F) seed faults cfg clock hogWindow k
    have hloop : RunState.CleanLoop (states k) (clean k) :=
      RunState.clean_loop_after seed faults cfg clock hogWindow fun j hj => hemit j (by omega)
    have hnext : RunState.CleanLoop (states (k + 1)) (clean (k + 1)) :=
      RunState.clean_loop_after seed faults cfg clock hogWindow fun j hj => hemit j (by omega)
    have hnow : (states k).bus.faults.silent (states k).bus.cycle = false := by
      rw [hcycle, hfaults]
      exact hemit k (Nat.le_refl k)
    refine ⟨hloop.goodFrame, hloop.received deadlineUs, ?_,
      (hloop.stepped hreg hnow deadlineUs startUs).2, by rw [hloop.bus], by rw [hnext.bus]⟩
    rw [RunState.received, SimBus.recv_emitted hnow]
    rfl
  · have hloop : RunState.CleanLoop (states cfg.cycles.toNat) (clean cfg.cycles.toNat) :=
      RunState.clean_loop_after seed faults cfg clock hogWindow hemit
    have hzero := hloop.node.validator.byReason
    show (clean cfg.cycles.toNat).outcome cfg hogWindow =
      { (states cfg.cycles.toNat).outcome cfg hogWindow with
        rejected := 0, rejectedByReason := .replicate 8 0 }
    unfold RunState.outcome
    rw [hzero, hloop.rest]

/-- A duplicate in the first cycle and a bad CRC in the second leave the second step alone; the
third cycle is dropped. -/
theorem corrupted_run_is_clean_run_second :
    let faults : FaultSchedule :=
      { FaultSchedule.clean with duplicate := {0}, badCrc := {1}, dropped := {2} }
    let cfg : RunConfig := ⟨4, 10000, 80000, .virtual⟩
    let clock : Clock := ⟨id, id⟩
    ((RunState.after (SimBus.new 7 .clean : SimBus ℚ) cfg clock none 1).stepped 20000 10000).2 =
      { ((RunState.after (SimBus.new 7 faults : SimBus ℚ) cfg clock none 1).stepped
          20000 10000).2 with rejected := 0 } := by
  intro faults cfg clock
  have hemit : ∀ j ≤ 1, faults.silent (UInt64.ofNat j) = false := by decide
  clear_value faults cfg
  obtain ⟨hcycle, -⟩ := corrupted_run_is_clean_run (F := ℚ) 7 faults cfg clock none
  exact (hcycle 1 hemit 20000 10000).2.2.2.1

end Fieldbus
