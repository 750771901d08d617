import Fieldbus.Core.Percentiles
import Fieldbus.Host.Execution

/-!
# The result files

After the report functions of `host/src/report.rs`: the data of a run report, how it is built from
what one execution produced, the verdict on the `cpu-hog` control, and the assembled evidence file.
The gate and the verdicts on the other two controls are in `Fieldbus.Host.Report`.
-/

namespace Fieldbus.Report

open Std (ExtTreeMap)
open J1939

/-- How many explained misses are written before the list is capped. -/
def maxExplainedMisses : Nat := 200

/-- What the numbers were produced on, and what they were not produced on. -/
structure Environment where
  os : String
  arch : String
  cpuModel : String
  coreCount : UInt64
  schedulingPolicy : String
  mode : String
  clockMode : String
  hostCount : UInt32
  physicalCanHardware : Bool
  hardwareInTheLoop : Bool
  rtos : Bool
  statement : String
  deriving DecidableEq

/-- Which manifest a run was gated against: the path as given, and the hash of its bytes. -/
structure ManifestRef where
  path : String
  sha256 : String
  deriving DecidableEq

/-- Jitter summary, with its own resolution stated inline. -/
structure JitterReport where
  p50 : UInt64
  p95 : UInt64
  p99 : UInt64
  max : UInt64
  min : UInt64
  mean : UInt64
  samples : UInt64
  histogramBucketWidthUs : UInt64
  histogramOverflowed : Bool
  percentileReporting : String
  deriving DecidableEq

/-- One explained deadline miss. -/
structure MissReport where
  cycle : UInt64
  kind : String
  jitterUs : UInt64
  workUs : UInt64
  overrunUs : UInt64
  deriving DecidableEq

/-- Deadline accounting: the exact total, and the detail of the first misses. -/
structure DeadlineReport where
  count : UInt64
  explained : List MissReport
  explainedTruncated : Bool
  definition : String

/-- Frame accounting. -/
structure CanReport where
  accepted : UInt32
  rejected : UInt32
  rejectedByReason : ExtTreeMap String UInt32

/-- Watchdog outcome. -/
structure WatchdogReport where
  tripped : Bool
  reason : Option String
  reactionTimeUs : Option UInt64
  reactionTimeDefinition : String
  reactionBoundUs : Option UInt64
  reactionMarginUs : Option Int64
  overshootPastBudgetUs : Option UInt64
  tripCycle : Option UInt64
  actuatorZeroSinceTrip : Bool
  timeoutUs : UInt64

/-- What one thread asked the scheduler for and what it got. -/
structure ThreadPolicyReport where
  policy : String
  requested : String
  granted : Bool
  detail : String
  qosClass : String
  deriving DecidableEq

/-- The contention of a run, and what separates the contended part from the rest of it. -/
structure HogReport where
  threads : UInt64
  policy : ThreadPolicyReport
  policyGranted : UInt64
  windowStartCycle : UInt64
  windowEndCycle : UInt64
  missesInsideWindow : UInt64
  missesOutsideWindow : UInt64
  jitterInsideWindow : JitterReport
  jitterOutsideWindow : JitterReport
  attribution : String

/-- One run's complete result file. -/
structure RunReport where
  runId : String
  environment : Environment
  manifest : ManifestRef
  targetPeriodUs : UInt64
  cycles : UInt64
  wallUs : UInt64
  jitterUs : JitterReport
  missedDeadlines : DeadlineReport
  can : CanReport
  watchdog : WatchdogReport
  controlThreadPolicy : ThreadPolicyReport
  hog : Option HogReport
  gate : GateReport
  control : Option ControlReport

/-! ## Building a run report -/

/-- Describes the current process and the given clock mode. -/
def Environment.detect (s : Surroundings) (clockMode : Mode) (schedulingPolicy : String) :
    Environment where
  os := s.os
  arch := s.arch
  cpuModel := s.cpuModel
  coreCount := s.logicalCores
  schedulingPolicy := schedulingPolicy
  mode := "simulated"
  clockMode := clockMode.asStr
  hostCount := 1
  physicalCanHardware := false
  hardwareInTheLoop := false
  rtos := false
  statement := "Simulated in-process CAN bus and simulated first-order sensor plant, single " ++
    "host, no physical CAN hardware, not hardware in the loop, no RTOS. A POSIX-hosted " ++
    "periodic loop with deadline telemetry, not a hard real-time system."

/-- Arithmetic mean, truncated; 0 without samples. -/
def meanUs (j : JitterStats) : UInt64 := if j.count = 0 then 0 else j.sumUs / j.count

/-- Summarises one jitter histogram. -/
def jitterReport (j : JitterStats) : JitterReport where
  p50 := j.percentilePermille 500
  p95 := j.percentilePermille 950
  p99 := j.p99Us
  max := j.maxUs
  min := j.reportedMinUs
  mean := meanUs j
  samples := j.count
  histogramBucketWidthUs := bucketWidthUs
  histogramOverflowed := j.overflowed
  percentileReporting :=
    s!"nearest-rank, reported as the upper edge of the containing {bucketWidthUs} us bucket. " ++
    "Buckets are half-open, so a reported value r means the true value lies in " ++
    s!"[r - {bucketWidthUs}, r). An all-zero run reports every percentile as {bucketWidthUs} " ++
    "while max reports 0. min and max are exact."

/-- Describes one thread's scheduling request and its outcome. -/
def threadPolicyReport (policy : ThreadPolicy) (s : SchedulingReport) : ThreadPolicyReport where
  policy := policy.asStr
  requested := s.requested
  granted := s.granted
  detail := s.detail
  qosClass := s.qosClass

/-- Summarises the contention. -/
def hogReport (h : HogResult) : HogReport :=
  let inside := jitterReport h.jitterInsideWindow
  let outside := jitterReport h.jitterOutsideWindow
  { threads := h.threads
    policy :=
      { policy := h.policy.asStr
        requested := h.policyRequested
        granted := h.policyGranted == h.threads && decide (h.threads > 0)
        detail := s!"{h.policyGranted} of {h.threads} spinners were granted it"
        qosClass := h.qosClass }
    policyGranted := h.policyGranted
    windowStartCycle := h.startCycle
    windowEndCycle := h.endCycle
    missesInsideWindow := h.missesInsideWindow
    missesOutsideWindow := h.missesOutsideWindow
    jitterInsideWindow := inside
    jitterOutsideWindow := outside
    attribution :=
      s!"Cycles {h.startCycle}..{h.endCycle} ran with {h.threads} spinners at the " ++
      s!"{h.policy.asStr} policy ({h.policyGranted} of them granted it, QoS class " ++
      s!"{h.qosClass}). The rest of the run is the same thread at the same policy with no hog, " ++
      s!"so it is this run's own baseline. Missed deadlines: {h.missesInsideWindow} inside the " ++
      s!"window, {h.missesOutsideWindow} outside it. Wake jitter p99: {inside.p99} us inside, " ++
      s!"{outside.p99} us outside; max {inside.max} us inside, {outside.max} us outside. Read " ++
      "the two together: a p99 that is already above the gate threshold outside the window is " ++
      "the control thread's own policy, not the contention, and only what separates inside " ++
      "from outside is the hog." }

/-- The refusals of a run, keyed by the names of the reasons. -/
def byReason (counts : Vector UInt32 8) : ExtTreeMap String UInt32 :=
  (List.finRange 8).foldl
    (fun names (i : Fin 8) => names.insert (Reject.name i) (counts.get i)) ∅

/-- The entry of one miss. -/
def missReport (m : Miss) : MissReport where
  cycle := m.cycle
  kind := m.kind.asStr
  jitterUs := m.jitterUs
  workUs := m.workUs
  overrunUs := m.overrunUs

variable {F : Type}

/-- Builds a run report from what one execution produced and the frozen manifest. -/
def buildRunReport (s : Surroundings) (runId : String) (result : RunResult F) (cfgMode : Mode)
    (periodUs : UInt64) (manifest : FrozenManifest) (manifestRef : ManifestRef) : RunReport :=
  let outcome := result.outcome
  let explained := (outcome.misses.take maxExplainedMisses).map missReport
  let reaction := outcome.safeState.map Watchdog.SafeState.timeSinceLastAcceptedUs
  -- the bound belongs to one control but is reported on every run
  let bound := (manifest.control "sensor-freeze").toOption.bind fun c => c.maxReactionTimeUs
  { runId := runId
    environment := .detect s cfgMode result.scheduling.summary
    manifest := manifestRef
    targetPeriodUs := periodUs
    cycles := outcome.executedCycles
    wallUs := result.wallUs
    jitterUs := jitterReport outcome.jitter
    missedDeadlines :=
      { count := outcome.jitter.missedDeadlines
        explained := explained
        explainedTruncated := outcome.misses.length > explained.length
        definition := "A cycle whose work finished after its own scheduled start plus one " ++
          "period, plus every whole period that elapsed with no cycle executing in it." }
    can :=
      { accepted := outcome.accepted
        rejected := outcome.rejected
        rejectedByReason := byReason outcome.rejectedByReason }
    watchdog :=
      { tripped := outcome.safeState.isSome
        reason := outcome.safeState.map Watchdog.SafeState.reasonName
        reactionTimeUs := reaction
        reactionTimeDefinition := "tripped_at_us - last_seen_us: the whole path from the " ++
          "timestamp of the last accepted sensor frame to the check that latched the safe " ++
          "state. Bounded by the sensor-freeze control's max_reaction_time_us in the frozen " ++
          "manifest."
        reactionBoundUs := bound
        reactionMarginUs := bound.bind fun b => reaction.map fun r => margin b r
        overshootPastBudgetUs := outcome.safeState.map Watchdog.SafeState.overshootPastBudgetUs
        tripCycle := outcome.tripCycle
        actuatorZeroSinceTrip := outcome.actuatorZeroSinceTrip
        timeoutUs := manifest.watchdog.timeoutUs }
    controlThreadPolicy := threadPolicyReport result.controlThreadPolicy result.scheduling
    hog := result.hog.map hogReport
    gate := evaluatePositiveGate outcome manifest.verdicts
    control := none }

/-! ## The `cpu-hog` control -/

/-- Evaluates whether the `cpu-hog` control was caught: the gate failed. The other checks are
diagnostics, which always pass. -/
def evaluateCpuHog (gate : GateReport) (hog : Option HogResult) : ControlReport :=
  let caught := !gate.pass
  let threads := (hog.map HogResult.threads).getD 0
  let granted := (hog.map HogResult.policyGranted).getD 0
  let inside : UInt64 := (hog.map fun h => h.missesInsideWindow).getD 0
  let outside : UInt64 := (hog.map fun h => h.missesOutsideWindow).getD 0
  let p99In : UInt64 := (hog.map fun h => h.jitterInsideWindow.p99Us).getD 0
  let p99Out : UInt64 := (hog.map fun h => h.jitterOutsideWindow.p99Us).getD 0
  let policy := (hog.map fun h => h.policy.asStr).getD "none"
  let attributable := decide (inside > 0) && decide (inside > outside)
  { id := "cpu-hog"
    expected := "the positive gate is violated: missed_deadlines > 0 OR p99 jitter > 1000 us"
    caughtChecks := [
      { name := "positive_gate_fails"
        expected := "false (the gate must not pass under contention)"
        observed := s!"gate pass = {gate.pass}"
        passed := caught },
      { name := "hog_threads_with_policy_granted"
        expected := s!"diagnostic only, {threads} spawned at policy {policy}"
        observed := s!"{granted} of {threads} granted"
        passed := true },
      { name := "misses_inside_versus_outside_the_hog_window"
        expected := "diagnostic only: misses attributable to the hog land inside its window"
        observed := s!"{inside} inside, {outside} outside"
        passed := true },
      { name := "p99_jitter_inside_versus_outside_the_hog_window"
        expected := "diagnostic only: the out-of-window figure is this run's own baseline for " ++
          "a control thread at the same policy with no hog"
        observed := s!"{p99In} us inside, {p99Out} us outside"
        passed := true }]
    caught := caught
    note :=
      if caught then
        if attributable then
          s!"Caught, and attributable. {threads} spinning threads at the {policy} policy " ++
          s!"({granted} granted it) produced {inside} missed deadlines inside the hog window " ++
          s!"against {outside} outside it, with p99 wake jitter of {p99In} us inside against " ++
          s!"{p99Out} us outside. The out-of-window figures are the same thread at the same " ++
          "policy with no hog, so what separates them is the contention."
        else
          s!"Caught, but NOT attributable to the contention. {threads} spinning threads at the " ++
          s!"{policy} policy ({granted} granted it) produced {inside} missed deadlines inside " ++
          s!"the hog window against {outside} outside it, with p99 wake jitter of {p99In} us " ++
          s!"inside against {p99Out} us outside. The gate failed, but the out-of-window " ++
          "baseline in this same run already fails it, which means what the gate caught is the " ++
          "control thread's own scheduling policy and not the hog. The manifest pre-registered " ++
          "this reading before the run; it is not a reinterpretation after one."
      else
        s!"NOT caught. {threads} spinning threads at the {policy} policy ({granted} granted " ++
        s!"it) did not push the loop past the frozen gate: {inside} missed deadlines inside " ++
        s!"the window, {outside} outside, p99 {p99In} us inside against {p99Out} us outside. " ++
        "The gate has deliberately not been weakened to make this control fire and the hog has " ++
        "not been made more aggressive than the frozen mechanism specifies." }

/-! ## The evidence file -/

/-- The overall verdict. -/
structure Summary where
  positiveRunsPassed : Nat
  positiveRunsTotal : Nat
  controlsCaught : Nat
  controlsTotal : Nat
  overallPass : Bool
  deriving DecidableEq

/-- The assembled evidence file. -/
structure CompletionReport where
  what : String
  manifest : ManifestRef
  environment : Environment
  targetPeriodUs : UInt64
  cycles : UInt64
  positiveRuns : List RunReport
  negativeControls : List RunReport
  summary : Summary
  limitations : List String

/-- The limitations carried inside every evidence file. -/
def limitations : List String := [
  "The CAN bus is simulated in-process. No CAN adapter, transceiver or physical bus was " ++
    "involved, and no frame left this machine.",
  "The sensor is a simulated first-order plant driven by the node's own command. There is no " ++
    "physical sensor and no physical actuator.",
  "This is not hardware in the loop. No device, board, QEMU instance or virtual interface " ++
    "stands in for hardware in these numbers.",
  "Single host. Every number was produced on one Apple Silicon Mac under macOS with other " ++
    "processes running; there is no cross-machine or cross-platform comparison here.",
  "Not a hard real-time system. This is a POSIX-hosted periodic loop with deadline telemetry. " ++
    "The Mach time-constraint policy is requested as a best effort and the grant result is " ++
    "recorded; it is not a guarantee, and macOS may demote the thread.",
  "No RTOS, no ISO 26262 process, no ASIL classification, no automotive qualification and no " ++
    "certification of any kind.",
  "fieldbus-core is compiled for thumbv7em-none-eabihf as a cross-compile check only. It has " ++
    "never been flashed to or executed on a microcontroller, and no timing figure here " ++
    "describes a microcontroller.",
  "The SocketCAN backend uses real AF_CAN sockets but is exercised only against a virtual " ++
    "vcan0 interface on a GitHub Actions ubuntu runner. A virtual interface is a kernel " ++
    "loopback, not a bus.",
  "Jitter percentiles are reported as the upper edge of a 10 us histogram bucket. They are " ++
    "bounds, not exact samples; min and max are exact.",
  "The cpu-hog control, and only that control, runs its control thread at the default " ++
    "timeshare policy so that the hog threads can be in a strictly higher scheduling band. On " ++
    "this host that demotion by itself costs about 2 ms of wake latency, which already exceeds " ++
    "the frozen 1000 us p99 threshold before any spinner starts. A p99 violation on that run " ++
    "is therefore not evidence of contention; the missed deadlines and the gap between the " ++
    "in-window and out-of-window figures are. Both positive runs request the time-constraint " ++
    "policy and are unaffected.",
  "watchdog.reaction_time_us means something different here than it did in results/v1/. It is " ++
    "now the whole path from the last accepted sensor frame to the latched safe state, which " ++
    "is the quantity the 100 ms requirement bounds. What v1 reported under that name is kept " ++
    "as overshoot_past_budget_us."]

end Fieldbus.Report
