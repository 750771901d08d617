import Mathlib.Data.Nat.Count
import Fieldbus.Host.Manifest
import Fieldbus.Host.Teardown

/-!
# One execution

The part of `host/src/runner.rs` around the loop: what the control thread and the spinners ask the
scheduler for, and the figures of the pool that a run reports beside those of the loop. What the
operating system answers is a parameter (`Surroundings`). The figures of the pool are those that it
holds once it is stopped (`pool_result`).
-/

namespace Fieldbus

/-- The stable name written into the results. -/
def Mode.asStr : Mode → String
  | .realTime => "real-time"
  | .virtual => "virtual-time"

/-- The stable name written into the results. -/
def MissKind.asStr : MissKind → String
  | .workOverran => "work_overran"
  | .skippedPeriod => "skipped_period"

/-- The single-line form written into the results. -/
def SchedulingReport.summary (s : SchedulingReport) : String :=
  s!"requested={s.requested}, granted={s.granted}, detail={s.detail}, qos_class={s.qosClass}"

/-- What a process finds around it: the clock, the machine, and the answers to the scheduling
requests of the control thread and of the spinners. -/
structure Surroundings where
  clock : Clock
  wallUs : UInt64
  os : String
  arch : String
  cpuModel : String
  availableParallelism : Option UInt64
  qosClass : String
  requestRealtimePolicy : UInt64 → SchedulingReport
  spinnerQosClass : Nat → String
  spinnerRequest : Nat → UInt64 → SchedulingReport
  -- the spinner that noted its answer after all others had noted theirs
  lastSpinner : Nat

namespace Surroundings

/-- Logical core count. -/
def logicalCores (s : Surroundings) : UInt64 := s.availableParallelism.getD 1

/-- An idle machine with four cores that grants nothing. -/
def idle : Surroundings where
  clock := ⟨id, id⟩
  wallUs := 0
  os := "linux"
  arch := "x86_64"
  cpuModel := "unknown"
  availableParallelism := some 4
  qosClass := "not applicable"
  requestRealtimePolicy _ :=
    ⟨"SCHED_FIFO priority=80", false, "pthread_setschedparam rc=1", "not applicable"⟩
  spinnerQosClass _ := "not applicable"
  spinnerRequest _ _ :=
    ⟨"SCHED_FIFO priority=80", false, "pthread_setschedparam rc=1", "not applicable"⟩
  lastSpinner := 0

end Surroundings

/-- Apply the policy to a thread with the given QoS class and answer to a request. -/
def ThreadPolicy.apply (policy : ThreadPolicy) (qosClass : String)
    (request : UInt64 → SchedulingReport) (periodUs : UInt64) : SchedulingReport :=
  match policy with
  | .timeConstraint => request periodUs
  | .defaultTimeshare =>
      { requested := "none: the default timeshare policy"
        granted := false
        detail := "no thread_policy_set call was made on this thread"
        qosClass := qosClass }

/-- A window of contention, with the pool that makes it. -/
structure Contention extends HogWindow where
  threads : UInt64
  policy : ThreadPolicy

/-- The source's `HogOutcome`: the figures of the loop, and those of the pool. -/
structure HogResult extends HogOutcome where
  threads : UInt64
  policy : ThreadPolicy
  policyRequested : String
  policyGranted : UInt64
  qosClass : String

/-- The source's `RunOutcome`: what the loop reports, and what is known around it. -/
structure RunResult (F : Type) where
  outcome : RunOutcome F
  controlThreadPolicy : ThreadPolicy
  scheduling : SchedulingReport
  wallUs : UInt64
  hog : Option HogResult

namespace Contention

variable (c : Contention) (s : Surroundings) (periodUs : UInt64)

/-- The answer that a spinner of the pool gets. -/
def answer (i : Nat) : SchedulingReport :=
  c.policy.apply (s.spinnerQosClass i) (s.spinnerRequest i) periodUs

/-- How many spinners had their policy granted, once the pool is stopped. -/
def granted : UInt64 :=
  UInt64.ofNat (Nat.count (fun i => (c.answer s periodUs i).granted = true) c.threads.toNat)

/-- What the pool holds as its policy, once it is stopped; nothing is noted without a spinner. -/
def observed : PolicyObserved :=
  if c.threads = 0 then ⟨"", ""⟩
  else ⟨(c.answer s periodUs s.lastSpinner).requested, (c.answer s periodUs s.lastSpinner).qosClass⟩

/-- The figures of the loop together with those of the pool. -/
def result (h : HogOutcome) : HogResult :=
  { h with
    threads := c.threads
    policy := c.policy
    policyRequested := (c.observed s periodUs).requested
    policyGranted := c.granted s periodUs
    qosClass := (c.observed s periodUs).qosClass }

end Contention

/-- What the control thread is told about its scheduling. -/
def scheduling (s : Surroundings) (cfg : RunConfig) (policy : ThreadPolicy) : SchedulingReport :=
  match cfg.mode with
  | .realTime => policy.apply s.qosClass s.requestRealtimePolicy cfg.periodUs
  | .virtual =>
      { requested := "none"
        granted := false
        detail := "virtual-time mode does not sleep, so no scheduling policy is requested"
        qosClass := s.qosClass }

variable {F β : Type} [Scalar F] [CanBus β]

/-- The source's `run`: the loop, between the start and the end of the pool. -/
def execute (s : Surroundings) (bus : β) (cfg : RunConfig) (policy : ThreadPolicy)
    (contention : Option Contention) : RunResult F :=
  let outcome := run bus cfg s.clock (contention.map Contention.toHogWindow)
  { outcome := outcome
    controlThreadPolicy := policy
    scheduling := scheduling s cfg policy
    wallUs := s.wallUs
    hog := contention.bind fun c => outcome.hog.map (c.result s cfg.periodUs) }

/-! ## The pool behind the figures -/

/-- A pool that has stopped, in any order of its steps, holds these figures, for some spinner that
was the last to note its answer. -/
theorem pool_result (c : Contention) (s : Surroundings) (periodUs : UInt64)
    {h h' : CpuHog c.threads.toNat}
    (hreach : CpuHog.Reachable (fun i => c.answer s periodUs i) h) (hjoin : h.Joining) {count : Nat}
    (hrun : Run CpuHog.Spin (CpuHog.Step fun i => c.answer s periodUs i) h count h')
    (hstopped : h'.control = .stopped) :
    UInt64.ofNat h'.granted = c.granted s periodUs ∧
      (c.threads ≠ 0 → ∃ last,
        h'.policy = c.observed { s with lastSpinner := last } periodUs) := by
  obtain ⟨-, hgranted, hpolicy⟩ :=
    (CpuHog.joining_run ⟨hreach.consistent, hjoin⟩ hrun).1.after_stop hstopped
  refine ⟨?_, fun hthreads => ?_⟩
  · have hsame : (Finset.range c.threads.toNat).filter
        (fun i => (c.answer s periodUs i).granted = true) =
          (Finset.univ.filter fun i : Fin c.threads.toNat =>
            (c.answer s periodUs i).granted = true).map Fin.valEmbedding := by
      ext i
      simp [Fin.exists_iff, and_comm]
    rw [hgranted, Contention.granted, Nat.count_eq_card_filter_range, hsame, Finset.card_map]
  · have hpos : 0 < c.threads.toNat :=
      Nat.pos_of_ne_zero fun hzero => hthreads (UInt64.toNat_inj.mp hzero)
    obtain ⟨i, hi⟩ := hpolicy ⟨0, hpos⟩
    refine ⟨i, ?_⟩
    rw [hi, Contention.observed, if_neg hthreads]
    rfl

end Fieldbus
