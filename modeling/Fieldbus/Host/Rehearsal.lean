import Mathlib.Algebra.BigOperators.Group.Finset.Piecewise
import Fieldbus.Host.CleanRun
import Fieldbus.Host.Session
import Fieldbus.Host.VirtualVerdicts

/-!
# Rehearsals

The subcommands in virtual time. What `run` and each control answer follows from the numbers in the
manifest and the options (`virtual_verdict_iff`); the machine, its clock and the seed have no part
in it.
-/

namespace Fieldbus

open J1939

namespace FaultSchedule

/-- How many of the listed cycles a run of the given length reaches. -/
def reached (listed : Finset UInt64) (cycles : UInt64) : Nat :=
  (listed.filter fun cycle => cycle < cycles).card

theorem count_listed (listed : Finset UInt64) (cycles : UInt64) :
    Nat.count (fun k => UInt64.ofNat k ∈ listed) cycles.toNat = reached listed cycles := by
  rw [Nat.count_eq_card_filter_range, reached]
  have hsmall {k : Nat} (hk : k < cycles.toNat) : (UInt64.ofNat k).toNat = k :=
    UInt64.toNat_ofNat_of_lt' (hk.trans cycles.toNat_lt)
  refine Finset.card_nbij' UInt64.ofNat UInt64.toNat (fun k hk => ?_) (fun cycle hcycle => ?_)
    (fun k hk => ?_) fun cycle _ => ?_
  · simp only [Finset.coe_filter, Finset.mem_range, Set.mem_ofPred_eq] at hk ⊢
    exact ⟨hk.2, UInt64.lt_iff_toNat_lt.mpr (by rw [hsmall hk.1]; exact hk.1)⟩
  · simp only [Finset.coe_filter, Finset.mem_range, Set.mem_ofPred_eq] at hcycle ⊢
    exact ⟨UInt64.lt_iff_toNat_lt.mp hcycle.2, by rw [UInt64.ofNat_toNat]; exact hcycle.1⟩
  · simp only [Finset.coe_filter, Finset.mem_range, Set.mem_ofPred_eq] at hk
    exact hsmall hk.1
  · exact UInt64.ofNat_toNat

/-- Every listed cycle of an emitting schedule that a run reaches has its frame. -/
theorem injected_in_reached {faults : FaultSchedule} (hemits : ∀ k, faults.Emits k)
    (cycles : UInt64) :
    faults.injectedIn cycles.toNat =
      reached faults.badCrc cycles + reached faults.duplicate cycles +
        reached faults.outOfOrder cycles + reached faults.outOfRange cycles +
        reached faults.badLength cycles := by
  have hcycle (k : Nat) : faults.injections k =
      (if UInt64.ofNat k ∈ faults.badCrc then 1 else 0) +
        (if UInt64.ofNat k ∈ faults.duplicate then 1 else 0) +
        (if UInt64.ofNat k ∈ faults.outOfOrder then 1 else 0) +
        (if UInt64.ofNat k ∈ faults.outOfRange then 1 else 0) +
        (if UInt64.ofNat k ∈ faults.badLength then 1 else 0) := by
    rw [injections, if_pos (hemits k)]
    simp only [reasons, List.length_append, apply_ite List.length, List.length_cons,
      List.length_nil]
  simp only [injectedIn, hcycle, Finset.sum_add_distrib, ← Finset.card_filter,
    ← Nat.count_eq_card_filter_range, count_listed]

end FaultSchedule

namespace Report.InjectionCycles

/-- The listed cycles that a run of the given length reaches, of all kinds together. -/
def total (c : InjectionCycles) (cycles : UInt64) : Nat :=
  FaultSchedule.reached c.schedule.badCrc cycles +
    FaultSchedule.reached c.schedule.duplicate cycles +
    FaultSchedule.reached c.schedule.outOfOrder cycles +
    FaultSchedule.reached c.schedule.outOfRange cycles +
    FaultSchedule.reached c.schedule.badLength cycles

theorem emits (c : InjectionCycles) (k : Nat) : c.schedule.Emits k := by
  simp [FaultSchedule.Emits, FaultSchedule.silent, schedule, FaultSchedule.clean]

theorem injected_in (c : InjectionCycles) (cycles : UInt64) :
    c.schedule.injectedIn cycles.toNat = c.total cycles :=
  FaultSchedule.injected_in_reached c.emits cycles

/-- A reason is given as often as the cycles listed for it are reached. -/
theorem count_injects (c : InjectionCycles) (r : Reject) (cycles : UInt64) :
    Nat.count (c.schedule.Injects r) cycles.toNat =
      FaultSchedule.reached (c.schedule.listed r) cycles := by
  rw [← FaultSchedule.count_listed, Nat.count_eq_card_filter_range, Nat.count_eq_card_filter_range]
  exact congrArg Finset.card (Finset.filter_congr fun k _ => and_iff_right (c.emits k))

/-- A run refuses at most five frames a cycle. -/
theorem total_le (c : InjectionCycles) (cycles : UInt64) : c.total cycles ≤ 5 * cycles.toNat := by
  have hle (listed : Finset UInt64) : FaultSchedule.reached listed cycles ≤ cycles.toNat := by
    rw [← FaultSchedule.count_listed]
    exact Nat.count_le _
  have hcrc := hle c.schedule.badCrc
  have hduplicate := hle c.schedule.duplicate
  have horder := hle c.schedule.outOfOrder
  have hrange := hle c.schedule.outOfRange
  have hlength := hle c.schedule.badLength
  rw [total]
  omega

end Report.InjectionCycles

namespace Cli

open Report Fallible

/-! ## The mechanism of a control -/

variable {s : Surroundings} {m : FrozenManifest} {cycles : UInt64} {mech : Mechanism}

theorem mechanism_cpu_hog (h : mechanism s m cycles (some .cpuHog) = .ok mech) :
    mech.faults = .clean := by
  simp only [mechanism, bind_ok_iff, pure_ok_iff] at h
  obtain ⟨_, _, _, _, _, _, _, _, _, _, rfl⟩ := h
  rfl

theorem mechanism_can_corrupt (h : mechanism s m cycles (some .canCorrupt) = .ok mech) :
    ∃ spec c, m.control "can-corrupt" = .ok spec ∧ spec.injectionCycles = some c ∧
      mech.faults = c.schedule := by
  simp only [mechanism, bind_ok_iff, pure_ok_iff, ok_or_eq_ok_iff] at h
  obtain ⟨spec, hspec, c, hc, rfl⟩ := h
  exact ⟨spec, c, hspec, hc, rfl⟩

theorem mechanism_sensor_freeze (h : mechanism s m cycles (some .sensorFreeze) = .ok mech) :
    ∃ spec cycle, m.control "sensor-freeze" = .ok spec ∧ spec.freezeAtCycle = some cycle ∧
      mech.faults = freezing cycle := by
  simp only [mechanism, bind_ok_iff, pure_ok_iff, ok_or_eq_ok_iff] at h
  obtain ⟨spec, hspec, cycle, hcycle, rfl⟩ := h
  exact ⟨spec, cycle, hspec, hcycle, rfl⟩

/-! ## The answers -/

/-- What the manifest must say for `can-corrupt` to be caught. -/
structure Corrupts (gate : PositiveGate) (spec : FrozenControl) (c : InjectionCycles)
    (cycles : UInt64) : Prop where
  total : ∀ total ∈ spec.expectedRejectedTotal, total.toNat = c.total cycles
  byReason : ∀ expected ∈ spec.expectedRejectedByReason, ∀ (name : String) (want : UInt32),
    expected[name]? = some want → ∃ r : Reject, Reject.name r.index = name ∧
      want.toNat = FaultSchedule.reached (c.schedule.listed r) cycles
  accepted : ∀ acc ∈ spec.expectedAccepted, acc.toNat = cycles.toNat
  fails : gate.rejectedFramesMax.toNat < c.total cycles ∨
    cycles ≠ 0 ∧ gate.p99JitterUsMax < 10

/-- What the manifest must say for `sensor-freeze` to be caught. -/
structure Freezes (gate : PositiveGate) (spec : FrozenControl) (cycle : UInt64) (cfg : RunConfig) :
    Prop where
  reached : max cycle.toNat 1 + RunState.budget cfg < cfg.cycles.toNat
  later : RunState.budget cfg = 0 → cycle = 0
  within : ∀ bound ∈ spec.maxReactionTimeUs,
    (RunState.budget cfg + 1) * cfg.periodUs.toNat ≤ bound.toNat
  fails : gate.watchdogMayTrip = false ∨ gate.p99JitterUsMax < 10

/-- What the manifest of a plan must say for the answer to be yes. -/
def Plan.Rehearsed (p : Plan) : Option Control → Prop
  | none => p.cfg.cycles = 0 ∨ 10 ≤ p.manifest.positiveGate.p99JitterUsMax
  | some .cpuHog => p.cfg.cycles ≠ 0 ∧ p.manifest.positiveGate.p99JitterUsMax < 10
  | some .canCorrupt => ∃ spec c, p.manifest.control "can-corrupt" = .ok spec ∧
      spec.injectionCycles = some c ∧ Corrupts p.manifest.positiveGate spec c p.cfg.cycles
  | some .sensorFreeze => ∃ spec cycle, p.manifest.control "sensor-freeze" = .ok spec ∧
      spec.freezeAtCycle = some cycle ∧ Freezes p.manifest.positiveGate spec cycle p.cfg

variable {F : Type} [Scalar F] [FiniteScalar F] {p : Plan} {r : RunReport} {verdict : Bool}

/-- The gate on a run in virtual time without faults. -/
theorem clean_gate_iff (h : RunState.Virtual p.cfg) (hcycles : p.cfg.cycles.toNat < 2 ^ 32)
    (hclean : p.mechanism.faults = .clean) :
    (evaluatePositiveGate (p.result F s).outcome p.manifest.verdicts).pass = true ↔
      p.cfg.cycles = 0 ∨ 10 ≤ p.manifest.positiveGate.p99JitterUsMax := by
  have hemits (k : Nat) : FaultSchedule.clean.Emits k := RunState.clean_not_silent _
  have hnone : FaultSchedule.clean.injectedIn p.cfg.cycles.toNat = 0 := by
    rw [FaultSchedule.injected_in_reached hemits]
    rfl
  have hfed (k : Nat) :
      ¬ FaultSchedule.clean.Starved (RunState.budget p.cfg) k := fun hstarved => by
    have hself := hstarved.2 k (Nat.le_refl k) (hemits k)
    omega
  have hgate := virtual_gate_iff (F := F) s.clock
    (p.mechanism.contention.map Contention.toHogWindow) p.seed h hcycles
    (show FaultSchedule.clean.injectedIn _ < _ by rw [hnone]; decide) p.manifest.verdicts
  rw [Plan.result, execute, hclean]
  refine hgate.trans ⟨fun hall => hall.1, fun hp99 => ⟨hp99, ?_, .inr fun k _ => hfed k⟩⟩
  rw [hnone]
  exact Nat.zero_le _

/-- A control that must be caught fails the gate that a clean run passes. -/
theorem cpu_hog_rehearsed_iff (h : RunState.Virtual p.cfg) (hcycles : p.cfg.cycles.toNat < 2 ^ 32)
    (hclean : p.mechanism.faults = .clean)
    (hreport : p.report F s (some .cpuHog) = .ok (r, verdict)) :
    verdict = true ↔ p.Rehearsed (some .cpuHog) := by
  have hgate := clean_gate_iff (F := F) (s := s) h hcycles hclean
  obtain ⟨-, rfl⟩ := Prod.mk.inj (Except.ok.inj hreport)
  have hcaught : (evaluateCpuHog (buildRunReport s p.runId (p.result F s) p.cfg.mode p.cfg.periodUs
      p.manifest p.manifestRef).gate (p.result F s).hog).caught =
        !(evaluatePositiveGate (p.result F s).outcome p.manifest.verdicts).pass := rfl
  rw [hcaught, Bool.not_eq_true', ← Bool.not_eq_true, hgate, not_or, UInt64.not_le]
  rfl

/-- What is injected is what the lists say. -/
theorem can_corrupt_rehearsed_iff (h : RunState.Virtual p.cfg)
    (hcycles : 5 * p.cfg.cycles.toNat < 2 ^ 32) {spec : FrozenControl} {c : InjectionCycles}
    (hspec : p.manifest.control "can-corrupt" = .ok spec)
    (hfaults : p.mechanism.faults = c.schedule)
    (hreport : p.report F s (some .canCorrupt) = .ok (r, verdict)) :
    verdict = true ↔ Corrupts p.manifest.positiveGate spec c p.cfg.cycles := by
  simp only [Plan.report, judge, bind_ok_iff, pure_ok_iff, Prod.mk.injEq] at hreport
  obtain ⟨_, hfound, -, rfl⟩ := hreport
  obtain rfl := Except.ok.inj (hspec.symm.trans hfound)
  have hinjected := c.injected_in p.cfg.cycles
  have htotal := c.total_le p.cfg.cycles
  have hcaught := virtual_corrupt_iff (F := F) s.clock
    (p.mechanism.contention.map Contention.toHogWindow) p.seed h (by omega) c.emits (by omega)
    p.manifest.verdicts spec.toNegativeControl
  simp only [hinjected, c.count_injects] at hcaught
  have hresult : (p.result F s).outcome = run (SimBus.new p.seed c.schedule : SimBus F) p.cfg
      s.clock (p.mechanism.contention.map Contention.toHogWindow) := by
    rw [Plan.result, execute, hfaults]
  have hgate : (buildRunReport s p.runId (p.result F s) p.cfg.mode p.cfg.periodUs p.manifest
      p.manifestRef).gate = evaluatePositiveGate (p.result F s).outcome p.manifest.verdicts := rfl
  rw [hgate, hresult, hcaught]
  constructor
  · rintro ⟨htotal, hreasons, haccepted, hfails⟩
    exact ⟨htotal, hreasons, haccepted, hfails⟩
  · exact fun hall => ⟨hall.total, hall.byReason, hall.accepted, hall.fails⟩

/-- The sensor is silent from the cycle that the manifest says. -/
theorem sensor_freeze_rehearsed_iff (h : RunState.Virtual p.cfg)
    (hcycles : p.cfg.cycles.toNat < 2 ^ 32) {spec : FrozenControl} {cycle : UInt64}
    (hspec : p.manifest.control "sensor-freeze" = .ok spec)
    (hcycle : spec.freezeAtCycle = some cycle) (hfaults : p.mechanism.faults = freezing cycle)
    (hreport : p.report F s (some .sensorFreeze) = .ok (r, verdict)) :
    verdict = true ↔ Freezes p.manifest.positiveGate spec cycle p.cfg := by
  simp only [Plan.report, judge, bind_ok_iff, pure_ok_iff, Prod.mk.injEq] at hreport
  obtain ⟨_, hfound, -, rfl⟩ := hreport
  obtain rfl := Except.ok.inj (hspec.symm.trans hfound)
  have hcaught := virtual_freeze_iff (F := F) s.clock
    (p.mechanism.contention.map Contention.toHogWindow) p.seed h hcycles p.manifest.verdicts
    (show spec.toNegativeControl.freezeAtCycle = some cycle from hcycle)
  have hresult : (p.result F s).outcome = run (SimBus.new p.seed (freezing cycle) : SimBus F) p.cfg
      s.clock (p.mechanism.contention.map Contention.toHogWindow) := by
    rw [Plan.result, execute, hfaults]
  have hgate : (buildRunReport s p.runId (p.result F s) p.cfg.mode p.cfg.periodUs p.manifest
      p.manifestRef).gate = evaluatePositiveGate (p.result F s).outcome p.manifest.verdicts := rfl
  rw [hgate, hresult]
  refine Iff.trans hcaught ?_
  constructor
  · rintro ⟨hreached, hlater, hwithin, hfails⟩
    exact ⟨hreached, hlater, hwithin, hfails⟩
  · exact fun hall => ⟨hall.reached, hall.later, hall.within, hall.fails⟩

/-- What the answer of a subcommand in virtual time says of the manifest. -/
theorem rehearsed_iff {control : Option Control} (h : RunState.Virtual p.cfg)
    (hcycles : 5 * p.cfg.cycles.toNat < 2 ^ 32)
    (hmech : mechanism s p.manifest p.cfg.cycles control = .ok p.mechanism)
    (hreport : p.report F s control = .ok (r, verdict)) :
    verdict = true ↔ p.Rehearsed control := by
  have hlt : p.cfg.cycles.toNat < 2 ^ 32 := by omega
  cases control with
  | none =>
      have hclean : p.mechanism.faults = .clean := by rw [← Except.ok.inj hmech]
      obtain ⟨-, rfl⟩ := Prod.mk.inj (Except.ok.inj hreport)
      exact clean_gate_iff h hlt hclean
  | some which =>
      cases which with
      | cpuHog => exact cpu_hog_rehearsed_iff h hlt (mechanism_cpu_hog hmech) hreport
      | canCorrupt =>
          obtain ⟨spec, c, hspec, hc, hfaults⟩ := mechanism_can_corrupt hmech
          rw [can_corrupt_rehearsed_iff h hcycles hspec hfaults hreport]
          refine ⟨fun hall => ⟨spec, c, hspec, hc, hall⟩, ?_⟩
          rintro ⟨_, _, hspec', hc', hall⟩
          obtain rfl := Except.ok.inj (hspec.symm.trans hspec')
          obtain rfl := Option.some.inj (hc.symm.trans hc')
          exact hall
      | sensorFreeze =>
          obtain ⟨spec, cycle, hspec, hcycle, hfaults⟩ := mechanism_sensor_freeze hmech
          rw [sensor_freeze_rehearsed_iff h hlt hspec hcycle hfaults hreport]
          refine ⟨fun hall => ⟨spec, cycle, hspec, hcycle, hall⟩, ?_⟩
          rintro ⟨_, _, hspec', hcycle', hall⟩
          obtain rfl := Except.ok.inj (hspec.symm.trans hspec')
          obtain rfl := Option.some.inj (hcycle.symm.trans hcycle')
          exact hall

omit [FiniteScalar F] in
/-- A run whose mechanism the manifest describes comes to a verdict. -/
theorem report_of_mechanism {control : Option Control}
    (hmech : mechanism s p.manifest p.cfg.cycles control = .ok p.mechanism) :
    ∃ r verdict, p.report F s control = .ok (r, verdict) := by
  cases control with
  | none => exact ⟨_, _, rfl⟩
  | some which =>
      cases which with
      | cpuHog => exact ⟨_, _, rfl⟩
      | canCorrupt =>
          obtain ⟨spec, _, hspec, -⟩ := mechanism_can_corrupt hmech
          simp only [Plan.report, judge, hspec]
          exact ⟨_, _, rfl⟩
      | sensorFreeze =>
          obtain ⟨spec, _, hspec, -⟩ := mechanism_sensor_freeze hmech
          simp only [Plan.report, judge, hspec]
          exact ⟨_, _, rfl⟩

variable {c : Crates} {d : Disk}

/-- A run in virtual time that is planned and whose report can be written. -/
theorem rehearsal_returns (hprints : c.Prints) {i : Invocation} {control : Option Control}
    {rest : List String} (hcommand : command i.args = .ok (.run control rest))
    (hplan : plan c i.surroundings d rest control = .ok p) (hwrite : i.attempt = ⟨.ok (), .ok ()⟩)
    (h : RunState.Virtual p.cfg) (hcycles : 5 * p.cfg.cycles.toNat < 2 ^ 32) :
    ∃ verdict, (i.run c F d).2 = .ok verdict ∧ (verdict = true ↔ p.Rehearsed control) := by
  obtain ⟨o, -, -, -, -, hmech, -⟩ := plan_eq_ok_iff.mp hplan
  obtain ⟨r, verdict, hreport⟩ := report_of_mechanism (F := F) hmech
  refine ⟨verdict, ?_, rehearsed_iff h hcycles hmech hreport⟩
  have hconduct : conduct c F i.surroundings d rest control = .ok ⟨p.out, r, verdict⟩ :=
    conduct_eq_ok_iff.mpr ⟨p, hplan, hreport, rfl⟩
  obtain ⟨text, htext⟩ := hprints.run r
  rw [Invocation.run, dispatch, hcommand]
  simp only [cmdRun, hconduct, hwrite, htext, write_json_done]
  rfl

/-- In virtual time the exit status of `run` and of each control is a matter of the manifest and of
the options alone, for every machine, clock and seed. A run exits with 0 if the gate lets the p99 be
that of its first bucket; `cpu-hog` exits with 0 if the gate does not, as no contention is felt; the
other controls do if the manifest states what its own lists and its own budget amount to, and the
gate is one that the run fails. Otherwise they exit with 1. -/
theorem virtual_exit_status (hprints : c.Prints) {i : Invocation} {control : Option Control}
    {rest : List String} (hcommand : command i.args = .ok (.run control rest))
    (hplan : plan c i.surroundings d rest control = .ok p) (hwrite : i.attempt = ⟨.ok (), .ok ()⟩)
    (h : RunState.Virtual p.cfg) (hcycles : 5 * p.cfg.cycles.toNat < 2 ^ 32) :
    (exitCode (i.run c F d).2 = 0 ↔ p.Rehearsed control) ∧
      (exitCode (i.run c F d).2 = 1 ↔ ¬ p.Rehearsed control) := by
  obtain ⟨verdict, hrun, hverdict⟩ :=
    rehearsal_returns (F := F) hprints hcommand hplan hwrite h hcycles
  rw [hrun, ← hverdict]
  cases verdict <;> simp [exitCode]

/-- A sensor that stops halfway through the frozen run. -/
theorem virtual_exit_status_freeze :
    let i : Invocation := ⟨.idle, ⟨.ok (), .ok ()⟩,
      ["control", "sensor-freeze", "--mode", "virtual-time", "--out", "freeze.json"]⟩
    exitCode (i.run .reference ℚ .initial).2 = 0 := by
  intro i
  have hcommand : command i.args = .ok (.run (some .sensorFreeze)
      ["--mode", "virtual-time", "--out", "freeze.json"]) := rfl
  have hopts : parseOpts ["--mode", "virtual-time", "--out", "freeze.json"] =
      .ok ⟨none, none, none, .virtual, defaultPath, none, some "freeze.json"⟩ := rfl
  obtain ⟨p, hplan, -, hmanifest, hcfg⟩ := plan_initial (s := i.surroundings) hopts rfl rfl
    (show mechanism _ _ _ (some .sensorFreeze) = .ok _ from rfl)
  have h : RunState.Virtual p.cfg := by
    rw [hcfg]
    exact ⟨rfl, by decide, by decide⟩
  refine ((virtual_exit_status (F := ℚ) reference_prints hcommand hplan rfl h ?_).1).mpr ?_
  · rw [hcfg]
    decide
  · simp only [Plan.Rehearsed, hmanifest]
    refine ⟨_, 5000, rfl, rfl, ?_⟩
    rw [hcfg]
    refine ⟨by decide, by decide, fun bound hbound => ?_, .inl rfl⟩
    obtain rfl := Option.some.inj hbound
    decide

end Cli

end Fieldbus
