import Fieldbus.Library.Footprint
import Fieldbus.Host.Session

/-!
# The completion gate

After `scripts/run_completion_gate.sh`: runs and controls one after the other, each with a result
file of its own, and a report on all of these files, whose answer the script exits with. The
status is the worst that one of its runs would have on its own (`completion_gate_status`).
-/

namespace Fieldbus.Cli

open Report Fallible

/-- One run of the script with its options, which name the manifest and a result file, and what it
runs on. -/
structure Step (manifest : String) where
  control : Option Control
  options : List String
  opts : Opts
  out : String
  surroundings : Surroundings
  parsed : parseOpts options = .ok opts
  reads : opts.manifest = manifest
  writes : opts.out = some out

/-- A run without other options. -/
def Step.plain (manifest : String) (control : Option Control) (runId out : String)
    (s : Surroundings) : Step manifest where
  control := control
  options := ["--manifest", manifest, "--run-id", runId, "--out", out]
  opts := ⟨none, none, none, .realTime, manifest, some runId, some out⟩
  out := out
  surroundings := s
  parsed := rfl
  reads := rfl
  writes := rfl

variable {manifest : String}

def Step.invocation (step : Step manifest) : Invocation where
  surroundings := step.surroundings
  attempt := ⟨.ok (), .ok ()⟩
  args := step.control.elim ["run"] (fun which => ["control", which.id]) ++ step.options

/-- The runs of a script, and the file that the evidence goes to. -/
structure Gate (manifest : String) where
  steps : List (Step manifest)
  out : String
  surroundings : Surroundings

/-- The five runs of `scripts/run_completion_gate.sh`, with what each of them runs on. -/
def Gate.script (s : String → Surroundings) : Gate defaultPath where
  steps := [(none, "positive-1"), (some .cpuHog, "cpu-hog"), (some .canCorrupt, "can-corrupt"),
      (some .sensorFreeze, "sensor-freeze"), (none, "positive-2")].map fun run =>
    .plain defaultPath run.1 run.2 (".agent-work/gate/" ++ run.2 ++ ".json") (s run.2)
  out := "results/completion.json"
  surroundings := s "report"

/-- The result files of the positive runs. -/
def Gate.positives (g : Gate manifest) : List String :=
  (g.steps.filter fun step => step.control = none).map Step.out

/-- The result files of the controls. -/
def Gate.controls (g : Gate manifest) : List String :=
  (g.steps.filter fun step => step.control ≠ none).map Step.out

def Gate.reportPairs (g : Gate manifest) : List (String × String) :=
  ("--out", g.out) :: ((g.positives.map fun path => ("--positive", path)) ++
    g.controls.map fun path => ("--control", path))

def Gate.report (g : Gate manifest) : Invocation where
  surroundings := g.surroundings
  attempt := ⟨.ok (), .ok ()⟩
  args := "report" :: arguments g.reportPairs

variable (c : Crates) (F : Type) [Scalar F]

/-- The files of the script after its runs. -/
def Gate.ran (g : Gate manifest) (d : Disk) : Disk :=
  after c F d (g.steps.map Step.invocation)

/-- The script on a disk, where all that is written is. -/
def Gate.run (g : Gate manifest) (d : Disk) : Disk × Except String Bool :=
  g.report.run c F (g.ran c F d)

/-- What a run of the script would return on its own. -/
def Step.alone (step : Step manifest) (d : Disk) : Except String Bool :=
  ((step.invocation).run c F d).2

variable {c F} {d : Disk}

/-! ## One run -/

@[simp] theorem command_step (step : Step manifest) :
    command (step.invocation).args = .ok (.run step.control (step.options)) := by
  obtain ⟨control, runId, out, s⟩ := step
  cases control with
  | none => rfl
  | some which => cases which <;> rfl

/-- What a run finds out is the same on every disk that holds the same manifest. -/
theorem conduct_congr {d' : Disk} {s : Surroundings} {rest : List String} {o : Opts}
    {control : Option Control} (ho : parseOpts rest = .ok o)
    (hsame : d.file (c.resolve o.manifest) = d'.file (c.resolve o.manifest)) :
    conduct c F s d rest control = conduct c F s d' rest control := by
  have hload : load c d o.manifest = load c d' o.manifest := by
    rw [load, load, readToString, readToString, read, read, hsame]
  have href : manifestRef c d o.manifest = manifestRef c d' o.manifest := by
    rw [manifestRef, manifestRef, read, read, hsame]
  have hplan : plan c s d rest control = plan c s d' rest control := by
    simp only [plan, ho, bind, Except.bind, hload, href]
  rw [conduct, conduct, hplan]

/-- Where a run of the script puts its report. -/
theorem conduct_step_out {step : Step manifest} {k : Conduct}
    (h : conduct c F step.surroundings d (step.options) step.control = .ok k) :
    k.out = step.out := by
  obtain ⟨p, hplan, -, hout⟩ := conduct_eq_ok_iff.mp h
  obtain ⟨o, ho, hsome, -⟩ := plan_eq_ok_iff.mp hplan
  obtain rfl := Except.ok.inj (step.parsed.symm.trans ho)
  exact hout.trans (Option.some.inj (hsome.symm.trans step.writes))

/-- A run of the script writes its report, if it comes to one. -/
theorem step_run (hprints : c.Prints) (step : Step manifest) (d : Disk) :
    (∃ e, conduct c F step.surroundings d (step.options) step.control = .error e ∧
      (step.invocation).run c F d = (d, .error e)) ∨
    ∃ r verdict text, c.runText r = .ok text ∧
      conduct c F step.surroundings d (step.options) step.control =
        .ok ⟨step.out, r, verdict⟩ ∧
      (step.invocation).run c F d =
        (d.put (c.resolve step.out) (Utf8.encode (text ++ "\n")), .ok verdict) := by
  have hrun : (step.invocation).run c F d = cmdRun c F step.surroundings
      ⟨.ok (), .ok ()⟩ d (step.options) step.control := by
    rw [Invocation.run, dispatch, command_step]
    rfl
  rw [hrun, cmdRun]
  cases hconduct : conduct c F step.surroundings d (step.options) step.control with
  | error e => exact .inl ⟨e, rfl, rfl⟩
  | ok k =>
      obtain ⟨out, r, verdict⟩ := k
      obtain rfl : out = step.out := conduct_step_out hconduct
      obtain ⟨text, htext⟩ := hprints.run r
      refine .inr ⟨r, verdict, text, htext, rfl, ?_⟩
      simp only [htext, write_json_done]
      rfl

/-- A run of the script writes its own file and reads the manifest. -/
theorem step_local (hprints : c.Prints) (manifest : String) :
    Machine.Local (fun d (step : Step manifest) => (step.invocation).run c F d) Disk.file
      (fun step => c.resolve step.out) (fun _ => {c.resolve manifest}) where
  frame d step name hname := by
    obtain ⟨e, -, hrun⟩ | ⟨r, verdict, text, -, -, hrun⟩ := step_run (F := F) hprints step d
    · rw [hrun]
    · rw [hrun]
      exact put_other hname _
  reads d d' step hmanifest htarget := by
    have hsame : conduct c F step.surroundings d step.options step.control =
        conduct c F step.surroundings d' step.options step.control :=
      conduct_congr step.parsed (hmanifest _ (congrArg c.resolve step.reads))
    obtain ⟨e, hconduct, hrun⟩ | ⟨r, verdict, text, htext, hconduct, hrun⟩ :=
      step_run (F := F) hprints step d
    · obtain ⟨e', -, hrun'⟩ | ⟨r, verdict, text, -, hconduct', -⟩ :=
        step_run (F := F) hprints step d'
      · rw [hrun, hrun']
        exact htarget
      · rw [← hsame, hconduct] at hconduct'
        cases hconduct'
    · obtain ⟨e', hconduct', -⟩ | ⟨r', verdict', text', htext', hconduct', hrun'⟩ :=
        step_run (F := F) hprints step d'
      · rw [← hsame, hconduct] at hconduct'
        cases hconduct'
      · rw [← hsame, hconduct] at hconduct'
        cases hconduct'
        rw [htext] at htext'
        obtain rfl := Except.ok.inj htext'
        rw [hrun, hrun']
        exact (put_same ..).trans (put_same ..).symm

/-- What a run of the script leaves in its file, if no report was there: its own. -/
theorem holds_step_iff (hc : c.Documents) (hprints : c.Prints) (step : Step manifest)
    (hclean : ∀ r, ¬ Holds c d (c.resolve step.out) r) (r : RunReport) :
    Holds c ((step.invocation).run c F d).1 (c.resolve step.out) r ↔
      ∃ verdict, conduct c F step.surroundings d (step.options) step.control =
        .ok ⟨step.out, r, verdict⟩ := by
  obtain ⟨e, hconduct, hrun⟩ | ⟨r', verdict, text, htext, hconduct, hrun⟩ :=
    step_run (F := F) hprints step d
  · rw [hrun, hconduct]
    exact ⟨fun h => absurd h (hclean r), fun ⟨_, h⟩ => nomatch h⟩
  · rw [hrun, hconduct]
    constructor
    · rintro ⟨text', hfile, hread⟩
      have hbytes := Except.ok.inj ((put_same ..).symm.trans hfile)
      obtain rfl : text ++ "\n" = text' := by
        have hdecode := Utf8.decode_encode text'
        rw [← hbytes, Utf8.decode_encode] at hdecode
        exact Option.some.inj hdecode
      rw [hc.run r' text htext] at hread
      obtain rfl := Except.ok.inj hread
      exact ⟨verdict, rfl⟩
    · rintro ⟨_, hsame⟩
      cases hsame
      exact ⟨_, put_same .., hc.run r text htext⟩

/-! ## The report -/

theorem parse_report_gate (g : Gate manifest) :
    parseReport (arguments g.reportPairs) = .ok ⟨some g.out, g.positives, g.controls⟩ := by
  refine (parse_pairs_describes ReportOpts.set _ report_set_of_pairs _ _).mpr
    ⟨g.reportPairs, rfl, ?_, ?_⟩
  · intro p hp
    simp only [Gate.reportPairs, List.mem_cons, List.mem_append, List.mem_map] at hp
    rcases hp with rfl | ⟨_, -, rfl⟩ | ⟨_, -, rfl⟩ <;> simp
  · have hout : lastValue g.reportPairs "--out" = some g.out := by
      refine last_value_cons _ fun p hp => ?_
      simp only [List.mem_append, List.mem_map] at hp
      rcases hp with ⟨_, -, rfl⟩ | ⟨_, -, rfl⟩ <;> simp
    rw [ReportOpts.ofPairs, hout]
    simp [allValues, Gate.reportPairs, List.filter_map, Function.comp_def]

/-- What the report answers: whether each file reads as a report of a run that passed, or of a
control that was caught. -/
theorem report_answers (hprints : c.Prints) (g : Gate manifest)
    (hpositive : ∃ step ∈ g.steps, step.control = none)
    (hcontrol : ∃ step ∈ g.steps, step.control ≠ none) (verdict : Bool) :
    (g.run c F d).2 = .ok verdict ↔ ∃ positiveRuns negativeControls,
      List.Forall₂ (fun path r => Holds c (g.ran c F d) (c.resolve path) r) g.positives
        positiveRuns ∧
      List.Forall₂ (fun path r => Holds c (g.ran c F d) (c.resolve path) r) g.controls
        negativeControls ∧
      ((∀ r ∈ positiveRuns, r.gate.pass = true) ∧ (∀ r ∈ negativeControls, wasCaught r = true) ↔
        verdict = true) := by
  have hrun : g.run c F d =
      cmdReport c ⟨.ok (), .ok ()⟩ (g.ran c F d) (arguments g.reportPairs) := rfl
  have hsome : g.positives ≠ [] ∧ g.controls ≠ [] := by
    obtain ⟨step, hmem, hnone⟩ := hpositive
    obtain ⟨step', hmem', hsome⟩ := hcontrol
    constructor
    · exact List.ne_nil_of_mem (List.mem_map_of_mem (List.mem_filter.mpr ⟨hmem, by simpa⟩))
    · exact List.ne_nil_of_mem (List.mem_map_of_mem (List.mem_filter.mpr ⟨hmem', by simpa⟩))
  rw [hrun, cmd_report_eq_ok_iff]
  simp only [assemble_eq_ok_iff, parse_report_gate]
  constructor
  · rintro ⟨out, e, ⟨o, first, positiveRuns, negativeControls, ho, -, -, -, hpositives,
      hcontrols, -, rfl⟩, -, rfl⟩
    obtain rfl := Except.ok.inj ho
    exact ⟨positiveRuns, negativeControls, hpositives, hcontrols,
      (completion_pass_iff first _ _).symm⟩
  · rintro ⟨positiveRuns, negativeControls, hpositives, hcontrols, hverdict⟩
    obtain ⟨first, rest, rfl⟩ : ∃ first rest, positiveRuns = first :: rest := by
      refine List.exists_cons_of_ne_nil ?_
      rintro rfl
      exact hsome.1 (List.forall₂_nil_right_iff.mp hpositives)
    obtain ⟨text, htext⟩ := hprints.completion (completion first (first :: rest) negativeControls)
    refine ⟨g.out, _, ⟨_, first, _, _, rfl, rfl, hsome.1, hsome.2, hpositives, hcontrols, rfl, rfl⟩,
      ?_, ?_⟩
    · rw [htext, write_json_done]
    · exact Bool.eq_iff_iff.mpr ((completion_pass_iff _ _ _).trans hverdict)

/-- What the verdict on a run is read from. -/
def Step.passes (step : Step manifest) (r : RunReport) : Bool :=
  if step.control = none then r.gate.pass else wasCaught r

theorem passes_positive {step : Step manifest} (h : step.control = none) (r : RunReport) :
    step.passes r = r.gate.pass := if_pos h

theorem passes_control {step : Step manifest} (h : step.control ≠ none) (r : RunReport) :
    step.passes r = wasCaught r := if_neg h

/-- The result files of one kind of runs read as good reports. -/
theorem files_read_iff (name : String → String) (steps : List (Step manifest))
    (kind : Step manifest → Prop) [DecidablePred kind] (d : Disk) (Good : RunReport → Prop) :
    (∃ reports, List.Forall₂ (fun path r => Holds c d (name path) r)
        ((steps.filter kind).map Step.out) reports ∧ ∀ r ∈ reports, Good r) ↔
      ∀ step ∈ steps, kind step → ∃ r, Holds c d (name step.out) r ∧ Good r := by
  rw [exists_forall₂_iff, List.forall_mem_map]
  simp only [List.mem_filter, decide_eq_true_eq, and_imp]

/-- The report comes to an answer if each file reads as a run report. -/
theorem report_answers_iff (hprints : c.Prints) (g : Gate manifest)
    (hpositive : ∃ step ∈ g.steps, step.control = none)
    (hcontrol : ∃ step ∈ g.steps, step.control ≠ none) :
    (∃ verdict, (g.run c F d).2 = .ok verdict) ↔
      ∀ step ∈ g.steps, ∃ r, Holds c (g.ran c F d) (c.resolve step.out) r := by
  have hpositives := files_read_iff (c := c) c.resolve g.steps (fun step => step.control = none)
    (g.ran c F d) fun _ => True
  have hcontrols := files_read_iff (c := c) c.resolve g.steps (fun step => step.control ≠ none)
    (g.ran c F d) fun _ => True
  simp only [and_true, implies_true] at hpositives hcontrols
  simp only [report_answers hprints g hpositive hcontrol]
  constructor
  · rintro ⟨_, _, _, hp, hn, -⟩ step hmem
    by_cases hkind : step.control = none
    · exact hpositives.mp ⟨_, hp⟩ step hmem hkind
    · exact hcontrols.mp ⟨_, hn⟩ step hmem hkind
  · intro hall
    obtain ⟨positiveRuns, hp⟩ := hpositives.mpr fun step hmem _ => hall step hmem
    obtain ⟨negativeControls, hn⟩ := hcontrols.mpr fun step hmem _ => hall step hmem
    exact ⟨_, _, _, hp, hn, decide_eq_true_iff.symm⟩

/-- The report answers yes if each file reads as a run report that passes. -/
theorem report_passes_iff (hprints : c.Prints) (g : Gate manifest)
    (hpositive : ∃ step ∈ g.steps, step.control = none)
    (hcontrol : ∃ step ∈ g.steps, step.control ≠ none) :
    (g.run c F d).2 = .ok true ↔ ∀ step ∈ g.steps, ∃ r,
      Holds c (g.ran c F d) (c.resolve step.out) r ∧ step.passes r = true := by
  have hpositives := files_read_iff (c := c) c.resolve g.steps (fun step => step.control = none)
    (g.ran c F d) fun r => r.gate.pass = true
  have hcontrols := files_read_iff (c := c) c.resolve g.steps (fun step => step.control ≠ none)
    (g.ran c F d) fun r => wasCaught r = true
  rw [report_answers hprints g hpositive hcontrol]
  constructor
  · rintro ⟨_, _, hp, hn, hverdict⟩ step hmem
    obtain ⟨hpass, hcaught⟩ := hverdict.mpr rfl
    by_cases hkind : step.control = none
    · simp only [passes_positive hkind]
      exact hpositives.mp ⟨_, hp, hpass⟩ step hmem hkind
    · simp only [passes_control hkind]
      exact hcontrols.mp ⟨_, hn, hcaught⟩ step hmem hkind
  · intro hall
    obtain ⟨positiveRuns, hp, hpass⟩ := hpositives.mpr fun step hmem hkind => by
      simpa only [passes_positive hkind] using hall step hmem
    obtain ⟨negativeControls, hn, hcaught⟩ := hcontrols.mpr fun step hmem hkind => by
      simpa only [passes_control hkind] using hall step hmem
    exact ⟨_, _, hp, hn, fun _ => rfl, fun _ => ⟨hpass, hcaught⟩⟩

/-! ## The script -/

/-- The exit status of a run that fails is larger than that of one that answers no, which is larger
than that of one that answers yes. -/
theorem worst_status (results : List (Except String Bool)) :
    (results.map exitCode).foldr max 0 =
      if ∀ r ∈ results, ∃ verdict, r = .ok verdict then
        if ∀ r ∈ results, r = .ok true then 0 else 1
      else 2 := by
  induction results with
  | nil => simp
  | cons first rest ih =>
      rw [List.map_cons, List.foldr_cons, ih]
      cases first with
      | error e =>
          have hfails : ¬ ∀ r ∈ Except.error e :: rest, ∃ verdict, r = .ok verdict := fun h =>
            nomatch h _ List.mem_cons_self
          rw [if_neg hfails]
          split_ifs <;> rfl
      | ok verdict =>
          have hanswers : (∀ r ∈ Except.ok verdict :: rest, ∃ verdict, r = .ok verdict) ↔
              ∀ r ∈ rest, ∃ verdict, r = .ok verdict := by simp
          have hpasses : (∀ r ∈ Except.ok verdict :: rest, r = .ok true) ↔
              verdict = true ∧ ∀ r ∈ rest, r = .ok true := by simp
          simp only [hanswers, hpasses]
          cases verdict with
          | false =>
              simp only [Bool.false_eq_true, false_and, if_false]
              split_ifs <;> rfl
          | true =>
              simp only [true_and]
              split_ifs <;> rfl

/-- What a run returns on its own. -/
theorem alone_eq_ok_iff (hprints : c.Prints) (step : Step manifest) (verdict : Bool) :
    step.alone c F d = .ok verdict ↔ ∃ r,
      conduct c F step.surroundings d (step.options) step.control =
        .ok ⟨step.out, r, verdict⟩ := by
  obtain ⟨e, hconduct, hrun⟩ | ⟨r, verdict', text, -, hconduct, hrun⟩ :=
    step_run (F := F) hprints step d
  · rw [Step.alone, hrun, hconduct]
    constructor
    · exact fun h => nomatch h
    · exact fun ⟨_, h⟩ => nomatch h
  · rw [Step.alone, hrun, hconduct]
    constructor
    · rintro h
      obtain rfl := Except.ok.inj h
      exact ⟨r, rfl⟩
    · rintro ⟨r', h⟩
      cases h
      rfl

/-- The verdict of a run is what is read from its report. -/
theorem conduct_passes {step : Step manifest} {r : RunReport} {verdict : Bool}
    (h : conduct c F step.surroundings d (step.options) step.control =
      .ok ⟨step.out, r, verdict⟩) : step.passes r = verdict := by
  obtain ⟨p, -, hreport, -⟩ := conduct_eq_ok_iff.mp h
  have hjudged := (report_judged hreport).2
  by_cases hkind : step.control = none
  · rw [passes_positive hkind]
    exact (hjudged.positive hkind).1.symm
  · rw [passes_control hkind, wasCaught, hjudged.caught hkind]
    rfl

/-- What the script relies on: there are runs of both kinds, the files that they name are apart from
each other and from the manifest, and no reports of earlier runs. -/
structure Gate.Ready (g : Gate manifest) (c : Crates) (d : Disk) : Prop where
  positive : ∃ step ∈ g.steps, step.control = none
  control : ∃ step ∈ g.steps, step.control ≠ none
  apart : (g.steps.map fun step => c.resolve step.out).Nodup
  unread : ∀ step ∈ g.steps, c.resolve step.out ≠ c.resolve manifest
  clean : ∀ step ∈ g.steps, ∀ r, ¬ Holds c d (c.resolve step.out) r

/-- What the file of a run reads as after all runs: the report that the run comes to alone. -/
theorem holds_ran_iff (hc : c.Documents) (hprints : c.Prints) {g : Gate manifest}
    (hready : g.Ready c d) {step : Step manifest} (hmem : step ∈ g.steps) (r : RunReport) :
    Holds c (g.ran c F d) (c.resolve step.out) r ↔ ∃ verdict,
      conduct c F step.surroundings d step.options step.control = .ok ⟨step.out, r, verdict⟩ := by
  have hran : g.ran c F d =
      Machine.final (fun d (step : Step manifest) => step.invocation.run c F d) d g.steps := by
    rw [Gate.ran, after, Machine.final, Machine.final, List.foldl_map]
  have hunread : ∀ step' ∈ g.steps, ∀ name ∈ ({c.resolve manifest} : Set String),
      name ∉ g.steps.map fun step => c.resolve step.out := by
    rintro _ _ _ rfl hin
    obtain ⟨other, hother, hname⟩ := List.mem_map.mp hin
    exact hready.unread other hother hname
  have hfile := (step_local (F := F) hprints manifest).final_target g.steps
    hready.apart hunread d step hmem
  rw [← holds_step_iff hc hprints step (hready.clean step hmem) r, Holds, Holds, hran, hfile]

/-- The script comes to an answer if each run does on its own. -/
theorem gate_answers_iff (hc : c.Documents) (hprints : c.Prints) {g : Gate manifest}
    (hready : g.Ready c d) :
    (∃ verdict, (g.run c F d).2 = .ok verdict) ↔
      ∀ step ∈ g.steps, ∃ verdict, step.alone c F d = .ok verdict := by
  rw [report_answers_iff hprints g hready.positive hready.control]
  refine forall₂_congr fun step hmem => ?_
  simp only [holds_ran_iff hc hprints hready hmem, alone_eq_ok_iff hprints]
  exact exists_comm

/-- The script passes if each run does on its own. -/
theorem gate_passes_iff (hc : c.Documents) (hprints : c.Prints) {g : Gate manifest}
    (hready : g.Ready c d) :
    (g.run c F d).2 = .ok true ↔ ∀ step ∈ g.steps, step.alone c F d = .ok true := by
  rw [report_passes_iff hprints g hready.positive hready.control]
  refine forall₂_congr fun step hmem => ?_
  simp only [holds_ran_iff hc hprints hready hmem, alone_eq_ok_iff hprints]
  constructor
  · rintro ⟨r, ⟨verdict, hconduct⟩, hpass⟩
    obtain rfl : verdict = true := (conduct_passes hconduct).symm.trans hpass
    exact ⟨r, hconduct⟩
  · rintro ⟨r, hconduct⟩
    exact ⟨r, ⟨true, hconduct⟩, conduct_passes hconduct⟩

/-- What the script exits with: the largest of the statuses that its runs would exit with on their
own. -/
theorem completion_gate_status (hc : c.Documents) (hprints : c.Prints) {g : Gate manifest}
    (hready : g.Ready c d) :
    exitCode (g.run c F d).2 =
      (g.steps.map fun step => exitCode (step.alone c F d)).foldr max 0 := by
  have hworst := worst_status (g.steps.map fun step => step.alone c F d)
  rw [List.map_map] at hworst
  simp only [List.forall_mem_map, ← gate_answers_iff hc hprints hready,
    ← gate_passes_iff hc hprints hready] at hworst
  refine Eq.trans ?_ hworst.symm
  cases hrun : (g.run c F d).2 with
  | error e => simp [exitCode]
  | ok verdict => cases verdict <;> simp [exitCode]

/-- The script on a disk with the frozen manifest. -/
theorem completion_gate_status_script :
    let g : Gate defaultPath := .script fun _ => .idle
    exitCode (g.run .reference ℚ .initial).2 =
      (g.steps.map fun step => exitCode (step.alone .reference ℚ .initial)).foldr max 0 := by
  intro g
  have hready : g.Ready .reference .initial :=
    { positive := ⟨_, List.mem_cons_self, rfl⟩
      control := ⟨_, List.mem_cons_of_mem _ List.mem_cons_self, by decide⟩
      apart := by decide
      unread := by decide
      clean := fun _ _ => initial_clean _ }
  exact completion_gate_status reference_documents reference_prints hready

end Fieldbus.Cli
