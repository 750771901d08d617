import Fieldbus.Core.Node
import Fieldbus.Core.Telemetry
import Fieldbus.Host.Bus

/-!
# The periodic runner

After `host/src/runner.rs`. `run` drives a node over any bus, one cycle after the other, and
accounts for wake jitter and missed deadlines. In real time the start and end of a cycle are what
the clock returns; they are a parameter here. Thread scheduling and the spinner threads do not
touch the state of the loop and are not modelled; the hog window is, because it splits the figures.
-/

namespace Fieldbus

/-- How the clock is obtained. -/
inductive Mode where
  | realTime
  | virtual
  deriving DecidableEq, Repr

/-- What the monotonic clock returns at the start and at the end of each cycle. -/
structure Clock where
  startUs : UInt64 → UInt64
  endUs : UInt64 → UInt64

/-- Why a period counted against the deadline budget. -/
inductive MissKind where
  | workOverran
  | skippedPeriod
  deriving DecidableEq, Repr

/-- One explained deadline miss. -/
structure Miss where
  cycle : UInt64
  kind : MissKind
  jitterUs : UInt64
  workUs : UInt64
  overrunUs : UInt64
  deriving DecidableEq, Repr

/-- Counts whole periods that elapsed with no cycle starting in them. -/
structure PeriodLedger where
  periodUs : UInt64
  nextUnaccounted : UInt64
  deriving DecidableEq, Repr

namespace PeriodLedger

/-- A ledger for a loop of the given period, before any cycle has started. -/
def new (periodUs : UInt64) : PeriodLedger := ⟨max periodUs 1, 0⟩

/-- Record that a cycle started and return how many whole periods went by unused. -/
def accountCycleStart (l : PeriodLedger) (startUs : UInt64) : PeriodLedger × UInt64 :=
  let period := startUs / l.periodUs
  ({ l with nextUnaccounted := period + 1 }, Watchdog.saturatingSub period l.nextUnaccounted)

end PeriodLedger

/-- Loop parameters of one run. -/
structure RunConfig where
  cycles : UInt64
  periodUs : UInt64
  watchdogTimeoutUs : UInt64
  mode : Mode

/-- A window of deliberate contention, in cycle indices. -/
structure HogWindow where
  startCycle : UInt64
  endCycle : UInt64

/-- What the contention did, split by whether a cycle fell inside the window. -/
structure HogOutcome where
  startCycle : UInt64
  endCycle : UInt64
  missesInsideWindow : UInt64
  missesOutsideWindow : UInt64
  jitterInsideWindow : JitterStats
  jitterOutsideWindow : JitterStats

/-- Everything one run produced. -/
structure RunOutcome (F : Type) where
  jitter : JitterStats
  misses : List Miss
  executedCycles : UInt64
  accepted : UInt32
  rejected : UInt32
  rejectedByReason : Vector UInt32 8
  safeState : Option Watchdog.SafeState
  tripCycle : Option UInt64
  actuatorZeroSinceTrip : Bool
  lastActuator : F
  hog : Option HogOutcome

/-- The local variables of the loop. -/
structure RunState (F β : Type) where
  bus : β
  node : ControlNode F
  jitter : JitterStats
  insideJitter : JitterStats
  outsideJitter : JitterStats
  missesInside : UInt64
  missesOutside : UInt64
  ledger : PeriodLedger
  misses : List Miss
  tripCycle : Option UInt64
  safeState : Option Watchdog.SafeState
  actuatorZeroSinceTrip : Bool
  lastActuator : F
  accepted : UInt32
  rejected : UInt32

variable {F β : Type} [Scalar F] [CanBus β]

namespace RunState

/-- The loop before its first cycle. -/
def initial (bus : β) (cfg : RunConfig) : RunState F β where
  bus := bus
  node := ControlNode.withWatchdogTimeout 0 cfg.watchdogTimeoutUs
  jitter := JitterStats.new
  insideJitter := JitterStats.new
  outsideJitter := JitterStats.new
  missesInside := 0
  missesOutside := 0
  ledger := PeriodLedger.new cfg.periodUs
  misses := []
  tripCycle := none
  safeState := none
  actuatorZeroSinceTrip := true
  lastActuator := Scalar.ofRat 0
  accepted := 0
  rejected := 0

/-- Record one miss in the histogram, the window split and the explained list. -/
def addMiss (l : RunState F β) (inWindow : Bool) (miss : Miss) : RunState F β :=
  { l with
    jitter := l.jitter.recordMiss
    missesInside := if inWindow then l.missesInside + 1 else l.missesInside
    missesOutside := if inWindow then l.missesOutside else l.missesOutside + 1
    misses := l.misses ++ [miss] }

/-- The start of a cycle: wake jitter, its attribution, and the periods that went by unused. -/
def accountStart (cfg : RunConfig) (inWindow : Bool) (cycle startUs jitterUs : UInt64)
    (l : RunState F β) : RunState F β :=
  let l := { l with
    jitter := l.jitter.record jitterUs
    insideJitter := if inWindow then l.insideJitter.record jitterUs else l.insideJitter
    outsideJitter := if inWindow then l.outsideJitter else l.outsideJitter.record jitterUs }
  let (ledger, skipped) := l.ledger.accountCycleStart startUs
  -- each skipped period is one explained miss of this cycle
  (List.range skipped.toNat).foldl
    (fun l k => l.addMiss inWindow
      ⟨cycle, .skippedPeriod, jitterUs, 0,
        Watchdog.saturatingSub jitterUs (UInt64.ofNat k * cfg.periodUs)⟩)
    { l with ledger := ledger }

/-- The work of a cycle: receive, step the node, transmit, and note what the step reported. -/
def work (cfg : RunConfig) (cycle scheduledUs startUs : UInt64) (l : RunState F β) :
    RunState F β :=
  let (bus, frames) := CanBus.recvUntil l.bus (scheduledUs + cfg.periodUs)
  let (node, out) := l.node.step startUs frames
  let bus := match out.commandFrame with
    | some f => (CanBus.send bus f).1
    | none => bus
  let (tripCycle, safeState) := match out.safeState with
    | some s => if l.tripCycle.isNone then (some cycle, some s) else (l.tripCycle, l.safeState)
    | none => (l.tripCycle, l.safeState)
  { l with
    bus := bus
    node := node
    accepted := out.accepted
    rejected := out.rejected
    lastActuator := out.actuator
    tripCycle := tripCycle
    safeState := safeState
    actuatorZeroSinceTrip :=
      if tripCycle.isSome ∧ (out.actuator != Scalar.ofRat 0) = true then false
      else l.actuatorZeroSinceTrip }

/-- A command is transmitted on the bus the frames came from. -/
theorem work_send (l : RunState F β) (cfg : RunConfig) (cycle scheduledUs startUs : UInt64)
    {f : J1939.Frame}
    (h : (l.node.step startUs
      (CanBus.recvUntil l.bus (scheduledUs + cfg.periodUs)).2).2.commandFrame = some f) :
    (l.work cfg cycle scheduledUs startUs).bus =
      (CanBus.send (CanBus.recvUntil l.bus (scheduledUs + cfg.periodUs)).1 f).1 := by
  simp only [work, h]

/-- The end of a cycle: a miss if the work finished past the deadline. -/
def accountEnd (cfg : RunConfig) (inWindow : Bool)
    (cycle scheduledUs startUs jitterUs endUs : UInt64) (l : RunState F β) : RunState F β :=
  let deadlineUs := scheduledUs + cfg.periodUs
  if endUs > deadlineUs then
    l.addMiss inWindow
      ⟨cycle, .workOverran, jitterUs, Watchdog.saturatingSub endUs startUs, endUs - deadlineUs⟩
  else l

/-- The scheduled start of a cycle. -/
def scheduled (cfg : RunConfig) (cycle : UInt64) : UInt64 := cycle * cfg.periodUs

/-- The actual start of a cycle. -/
def started (cfg : RunConfig) (clock : Clock) (cycle : UInt64) : UInt64 :=
  match cfg.mode with
  | .realTime => clock.startUs cycle
  | .virtual => scheduled cfg cycle

/-- The end of a cycle's work. -/
def ended (cfg : RunConfig) (clock : Clock) (cycle : UInt64) : UInt64 :=
  match cfg.mode with
  | .realTime => clock.endUs cycle
  | .virtual => scheduled cfg cycle

/-- Whether a cycle falls inside the hog window. -/
def inWindow (hogWindow : Option HogWindow) (cycle : UInt64) : Bool :=
  hogWindow.any (fun w => cycle ≥ w.startCycle ∧ cycle < w.endCycle)

/-- One pass of the loop. -/
def next (cfg : RunConfig) (clock : Clock) (hogWindow : Option HogWindow) (l : RunState F β)
    (cycle : UInt64) : RunState F β :=
  let scheduledUs := scheduled cfg cycle
  let startUs := started cfg clock cycle
  let endUs := ended cfg clock cycle
  let jitterUs := Watchdog.saturatingSub startUs scheduledUs
  let inWindow := inWindow hogWindow cycle
  let l := l.accountStart cfg inWindow cycle startUs jitterUs
  let l := l.work cfg cycle scheduledUs startUs
  l.accountEnd cfg inWindow cycle scheduledUs startUs jitterUs endUs

/-- The loop after a number of cycles. -/
def after (bus : β) (cfg : RunConfig) (clock : Clock) (hogWindow : Option HogWindow) :
    Nat → RunState F β
  | 0 => initial bus cfg
  | cycle + 1 => (after bus cfg clock hogWindow cycle).next cfg clock hogWindow (UInt64.ofNat cycle)

/-- What the loop reports at its end. -/
def outcome (cfg : RunConfig) (hogWindow : Option HogWindow) (l : RunState F β) : RunOutcome F where
  jitter := l.jitter
  misses := l.misses
  executedCycles := cfg.cycles
  accepted := l.accepted
  rejected := l.rejected
  rejectedByReason := l.node.validator.byReason
  safeState := l.safeState
  tripCycle := l.tripCycle
  actuatorZeroSinceTrip := l.actuatorZeroSinceTrip
  lastActuator := l.lastActuator
  hog := hogWindow.map fun w =>
    ⟨w.startCycle, w.endCycle, l.missesInside, l.missesOutside, l.insideJitter, l.outsideJitter⟩

end RunState

/-- Run the periodic loop over a bus. -/
def run (bus : β) (cfg : RunConfig) (clock : Clock) (hogWindow : Option HogWindow) :
    RunOutcome F :=
  (RunState.after bus cfg clock hogWindow cfg.cycles.toNat).outcome cfg hogWindow

namespace RunState

variable {l : RunState F β} {cfg : RunConfig} {clock : Clock} {hogWindow : Option HogWindow}

/-! ## What a cycle does to the control state

The accounting at either end of a cycle touches figures only, so `next` moves the bus, the node and
the reported safe state exactly as `work` does. -/

/-- Two loop states with the same bus, node, safe-state report, last output and counters. -/
structure SameControl (l m : RunState F β) : Prop where
  bus : l.bus = m.bus
  node : l.node = m.node
  tripCycle : l.tripCycle = m.tripCycle
  safeState : l.safeState = m.safeState
  actuatorZeroSinceTrip : l.actuatorZeroSinceTrip = m.actuatorZeroSinceTrip
  lastActuator : l.lastActuator = m.lastActuator
  accepted : l.accepted = m.accepted
  rejected : l.rejected = m.rejected

omit [Scalar F] [CanBus β] in
theorem SameControl.refl (l : RunState F β) : SameControl l l :=
  ⟨rfl, rfl, rfl, rfl, rfl, rfl, rfl, rfl⟩

omit [Scalar F] [CanBus β] in
theorem SameControl.trans {l m k : RunState F β} (h : SameControl l m) (h' : SameControl m k) :
    SameControl l k :=
  ⟨h.bus.trans h'.bus, h.node.trans h'.node, h.tripCycle.trans h'.tripCycle,
    h.safeState.trans h'.safeState, h.actuatorZeroSinceTrip.trans h'.actuatorZeroSinceTrip,
    h.lastActuator.trans h'.lastActuator, h.accepted.trans h'.accepted,
    h.rejected.trans h'.rejected⟩

omit [Scalar F] [CanBus β] in
/-- Recording misses leaves the control state alone. -/
theorem same_control_misses (l : RunState F β) (inWindow : Bool) (miss : Nat → Miss)
    (indices : List Nat) :
    SameControl (indices.foldl (fun l k => l.addMiss inWindow (miss k)) l) l := by
  induction indices generalizing l with
  | nil => exact .refl l
  | cons k rest ih =>
      have hone : SameControl (l.addMiss inWindow (miss k)) l :=
        ⟨rfl, rfl, rfl, rfl, rfl, rfl, rfl, rfl⟩
      exact (ih _).trans hone

omit [Scalar F] [CanBus β] in
theorem same_control_start (inWindow : Bool) (cycle startUs jitterUs : UInt64) :
    SameControl (l.accountStart cfg inWindow cycle startUs jitterUs) l :=
  (same_control_misses _ _ _ _).trans ⟨rfl, rfl, rfl, rfl, rfl, rfl, rfl, rfl⟩

omit [Scalar F] [CanBus β] in
theorem same_control_end (inWindow : Bool)
    (cycle scheduledUs startUs jitterUs endUs : UInt64) :
    SameControl (l.accountEnd cfg inWindow cycle scheduledUs startUs jitterUs endUs) l := by
  unfold accountEnd
  dsimp only
  split
  · exact ⟨rfl, rfl, rfl, rfl, rfl, rfl, rfl, rfl⟩
  · exact .refl l

/-- The work of a cycle depends only on the control state. -/
theorem SameControl.work {l m : RunState F β} (h : SameControl l m)
    (cycle scheduledUs startUs : UInt64) :
    SameControl (l.work cfg cycle scheduledUs startUs) (m.work cfg cycle scheduledUs startUs) := by
  unfold RunState.work
  simp only [h.bus, h.node, h.tripCycle, h.safeState, h.actuatorZeroSinceTrip]
  exact ⟨rfl, rfl, rfl, rfl, rfl, rfl, rfl, rfl⟩

/-- One cycle moves the control state as its work does. -/
theorem same_control_next (cycle : UInt64) :
    SameControl (l.next cfg clock hogWindow cycle)
      (l.work cfg cycle (scheduled cfg cycle) (started cfg clock cycle)) :=
  (same_control_end _ _ _ _ _ _).trans ((same_control_start _ _ _ _).work _ _ _)

end RunState

end Fieldbus
