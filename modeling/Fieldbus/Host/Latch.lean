import Fieldbus.Core.Latch
import Fieldbus.Host.Runner

/-!
# The safe state of a run

`RunState.Tracked` relates the safe state the loop reports to the node it drives; every cycle keeps
it (`tracked_next`), on every bus and with every clock. `safe_state_irrevocable` puts this together
with the node's own behaviour.
-/

namespace Fieldbus

open J1939

variable {F β : Type} [Scalar F] [CanBus β]

namespace RunState

variable {bus : β} {cfg : RunConfig} {clock : Clock} {hogWindow : Option HogWindow}

/-- The reported safe state is the node's, and the actuator has been zero since the trip. -/
structure Tracked (l : RunState F β) : Prop where
  safeState : l.safeState = l.node.safeState
  tripCycle : l.tripCycle.isSome = l.node.safeState.isSome
  actuatorZero : l.actuatorZeroSinceTrip = true

omit [Scalar F] [CanBus β] in
theorem SameControl.tracked {l m : RunState F β} (h : SameControl l m) (hm : Tracked m) :
    Tracked l :=
  ⟨by rw [h.safeState, h.node, hm.safeState], by rw [h.tripCycle, h.node, hm.tripCycle],
    by rw [h.actuatorZeroSinceTrip, hm.actuatorZero]⟩

/-- The node after the work of a cycle. -/
theorem work_node (l : RunState F β) (cycle scheduledUs startUs : UInt64) :
    (l.work cfg cycle scheduledUs startUs).node =
      (l.node.step startUs (CanBus.recvUntil l.bus (scheduledUs + cfg.periodUs)).2).1 := rfl

/-- The work of a cycle keeps the report in step with the node, and dates a new trip. -/
theorem tracked_work {l : RunState F β} (h : Tracked l) (cfg : RunConfig)
    (cycle scheduledUs startUs : UInt64) :
    Tracked (l.work cfg cycle scheduledUs startUs) ∧
      (l.work cfg cycle scheduledUs startUs).tripCycle =
        if l.node.safeState.isNone ∧ (l.work cfg cycle scheduledUs startUs).node.safeState.isSome
        then some cycle else l.tripCycle := by
  have hzero : ((safeActuator : F) != Scalar.ofRat 0) = false := by
    simp [bne, safeActuator, Scalar.zero_beq_zero]
  cases hlatch : l.node.safeState with
  -- already latched: the step repeats the state, and the trip is already dated
  | some s =>
      have hlatched : ControlNode.Latched s l.node.filter l.node.pi l.node := ⟨hlatch, rfl, rfl⟩
      have hstep := hlatched.step startUs (CanBus.recvUntil l.bus (scheduledUs + cfg.periodUs)).2
      obtain ⟨hnext, hout⟩ := hstep
      have hreport := h.safeState
      have htrip := h.tripCycle
      rw [hlatch] at hreport htrip
      obtain ⟨first, hfirst⟩ := Option.isSome_iff_exists.mp htrip
      refine ⟨⟨?_, ?_, ?_⟩, ?_⟩
      · simp [work, hout.safeState, hfirst, hreport, hnext.latch]
      · simp [work, hout.safeState, hfirst, hnext.latch]
      · simp [work, hout.actuator, hzero, h.actuatorZero]
      · simp [work, hout.safeState, hfirst]
  | none =>
      have hreport := h.safeState
      have htrip := h.tripCycle
      rw [hlatch] at hreport htrip
      have hnone : l.tripCycle = none := by simpa using htrip
      rw [work_node]
      cases hcheck : (l.node.step startUs
          (CanBus.recvUntil l.bus (scheduledUs + cfg.periodUs)).2).2.safeState with
      | none =>
          have hnext := hcheck
          rw [ControlNode.step_output_latch] at hnext
          refine ⟨⟨?_, ?_, ?_⟩, ?_⟩
          · simp [work, hcheck, hreport, hnext]
          · simp [work, hcheck, hnone, hnext]
          · simp [work, hcheck, hnone, h.actuatorZero]
          · simp [work, hcheck, hnext]
      -- the step latches: state and cycle are recorded together
      | some s =>
          have hnext := hcheck
          rw [ControlNode.step_output_latch] at hnext
          have hactuator := congrArg (fun r => r.2.actuator) (ControlNode.step_safe hcheck)
          refine ⟨⟨?_, ?_, ?_⟩, ?_⟩
          · simp [work, hcheck, hnone, hnext]
          · simp [work, hcheck, hnone, hnext]
          · simp [work, hactuator, hzero, h.actuatorZero]
          · simp [work, hcheck, hnone, hnext]

/-- Each cycle keeps the report in step with the node, and dates a new trip. -/
theorem tracked_next {l : RunState F β} (h : Tracked l) (cycle : UInt64) :
    Tracked (l.next cfg clock hogWindow cycle) ∧
      (l.next cfg clock hogWindow cycle).tripCycle =
        if l.node.safeState.isNone ∧ (l.next cfg clock hogWindow cycle).node.safeState.isSome
        then some cycle else l.tripCycle := by
  have hsame : SameControl (l.next cfg clock hogWindow cycle) _ := same_control_next cycle
  obtain ⟨htracked, htrip⟩ :=
    tracked_work h cfg cycle (scheduled cfg cycle) (started cfg clock cycle)
  exact ⟨hsame.tracked htracked, by rw [hsame.tripCycle, hsame.node, htrip]⟩

/-- A latch survives a cycle. -/
theorem latch_next {l : RunState F β} {s : Watchdog.SafeState} (h : l.node.safeState = some s)
    (cycle : UInt64) : (l.next cfg clock hogWindow cycle).node.safeState = some s := by
  have hlatched : ControlNode.Latched s l.node.filter l.node.pi l.node := ⟨h, rfl, rfl⟩
  rw [(same_control_next cycle).node, work_node]
  exact (hlatched.step _ _).1.latch

/-- The report is in step with the node after any number of cycles. -/
theorem after_tracked (bus : β) (cycles : Nat) :
    Tracked (after bus cfg clock hogWindow cycles : RunState F β) := by
  induction cycles with
  | zero => exact ⟨rfl, rfl, rfl⟩
  | succ cycles ih => exact (tracked_next ih _).1

/-- A latch survives any number of further cycles. -/
theorem after_latch_mono {s : Watchdog.SafeState} {early late : Nat} (hle : early ≤ late)
    (h : (after bus cfg clock hogWindow early : RunState F β).node.safeState = some s) :
    (after bus cfg clock hogWindow late : RunState F β).node.safeState = some s := by
  induction hle with
  | refl => exact h
  | step _ ih => exact latch_next ih _

/-- The reported trip cycle is the first cycle whose step latched. -/
theorem after_trip_first {cycles : Nat} {first : UInt64}
    (h : (after bus cfg clock hogWindow cycles : RunState F β).tripCycle = some first) :
    ∃ index < cycles, first = UInt64.ofNat index ∧
      (∀ k ≤ index, (after bus cfg clock hogWindow k : RunState F β).node.safeState = none) ∧
      ((after bus cfg clock hogWindow (index + 1) : RunState F β).node.safeState).isSome := by
  induction cycles with
  | zero => simp [after, initial] at h
  | succ cycles ih =>
      have htracked : Tracked (after bus cfg clock hogWindow cycles : RunState F β) :=
        after_tracked bus cycles
      rw [after, (tracked_next htracked _).2] at h
      split at h
      -- a cycle latched before this one would have kept its latch
      · rename_i hnew
        refine ⟨cycles, by omega, by simpa using h.symm, ?_, hnew.2⟩
        intro k hk
        by_contra hlatched
        obtain ⟨s, hs⟩ := Option.ne_none_iff_exists'.mp hlatched
        have := after_latch_mono hk hs
        simp [this] at hnew
      · obtain ⟨index, hindex, hrest⟩ := ih h
        exact ⟨index, by omega, hrest⟩

end RunState

/-- The safe state is irrevocable from the bus. Every step of a latched node returns the identical
safe state, commands the safe actuator value with `STATUS_SAFE` and leaves filter and controller
alone; before the latch every command carries `STATUS_OK`. A run reports the first latch, which is
the node's state at its end, and the actuator has been zero since. -/
theorem safe_state_irrevocable (bus : β) (cfg : RunConfig) (clock : Clock)
    (hogWindow : Option HogWindow) :
    (∀ n : ControlNode F, n.Reachable → ∀ s, n.safeState = some s →
      ∀ inputs : List (UInt64 × List Frame),
        (∀ out ∈ Machine.trace (fun n i => ControlNode.step n i.1 i.2) n inputs,
          ControlNode.SafeOutput s out) ∧
        ControlNode.Latched s n.filter n.pi
          (Machine.final (fun n i => ControlNode.step n i.1 i.2) n inputs)) ∧
    (∀ (n : ControlNode F) (nowUs : UInt64) (received : List Frame),
      (n.step nowUs received).2.safeState = none →
        ∃ value, (n.step nowUs received).2.commandFrame =
          some (commandFrame n.txSeq value statusOk)) ∧
    let states : Nat → RunState F β := RunState.after bus cfg clock hogWindow
    let outcome : RunOutcome F := run bus cfg clock hogWindow
    outcome.safeState = (states cfg.cycles.toNat).node.safeState ∧
      outcome.actuatorZeroSinceTrip = true ∧
      (outcome.tripCycle = none →
        ∀ k ≤ cfg.cycles.toNat, (states k).node.safeState = none) ∧
      ∀ first, outcome.tripCycle = some first →
        first < cfg.cycles ∧
        (∀ k ≤ first.toNat, (states k).node.safeState = none) ∧
        outcome.safeState.isSome ∧
        ∀ k, first.toNat < k → k ≤ cfg.cycles.toNat →
          (states k).node.safeState = outcome.safeState := by
  refine ⟨fun n _ s hs inputs => ControlNode.Latched.run ⟨hs, rfl, rfl⟩ inputs,
    fun n nowUs received h => ControlNode.unlatched_command h, ?_⟩
  intro states outcome
  have htracked : RunState.Tracked (states cfg.cycles.toNat) := RunState.after_tracked bus _
  refine ⟨htracked.safeState, htracked.actuatorZero, ?_, ?_⟩
  · intro hnone k hk
    by_contra hlatched
    obtain ⟨s, hs⟩ := Option.ne_none_iff_exists'.mp hlatched
    have hend : (states cfg.cycles.toNat).node.safeState = some s :=
      RunState.after_latch_mono hk hs
    have htrip := htracked.tripCycle
    rw [hend] at htrip
    simp [outcome, run, RunState.outcome] at hnone
    simp [states, hnone] at htrip
  · intro first hfirst
    obtain ⟨index, hindex, rfl, hbefore, hafter⟩ := RunState.after_trip_first hfirst
    obtain ⟨s, hs⟩ := Option.isSome_iff_exists.mp hafter
    have hstays : ∀ k, index < k → (states k).node.safeState = some s :=
      fun k hk => RunState.after_latch_mono hk hs
    have hreport : outcome.safeState = some s :=
      htracked.safeState.trans (hstays _ hindex)
    have hsmall : (UInt64.ofNat index).toNat = index :=
      UInt64.toNat_ofNat_of_lt' (hindex.trans cfg.cycles.toNat_lt)
    rw [hsmall, hreport, UInt64.lt_iff_toNat_lt, hsmall]
    exact ⟨hindex, hbefore, rfl, fun k hk _ => hstays k hk⟩

/-- A node with a 5 microsecond budget that heard nothing until 10 is latched, and a good frame at
an earlier timestamp does not revive it. -/
theorem safe_state_irrevocable_silent :
    let n : ControlNode ℚ := ((ControlNode.withWatchdogTimeout 0 5).step 10 []).1
    ControlNode.SafeOutput ⟨.sensorStale 0 10 5⟩ (n.step 3 [sensorFrame 0 1 statusOk]).2 := by
  intro n
  have hreachable : n.Reachable := ⟨0, 5, [.step 10 []], rfl⟩
  have hlatched : n.safeState = some ⟨.sensorStale 0 10 5⟩ := by decide
  have hclaim := (safe_state_irrevocable (SimBus.new 0 .clean : SimBus ℚ) ⟨0, 1, 5, .virtual⟩
    ⟨id, id⟩ none).1 n hreachable _ hlatched [(3, [sensorFrame 0 1 statusOk])]
  exact hclaim.1 _ List.mem_cons_self

end Fieldbus
