import Fieldbus.Host.Completion
import Fieldbus.Host.Consistency
import Fieldbus.Host.Rehearsal

/-!
# What answers and evidence rest on

The answer of an invocation rests on its result file, which stays as it is until another invocation
names it (`answer_lasts`). Whatever was done on a disk before, evidence that passes rests on runs
that passed and on controls that were caught (`passing_evidence`).
-/

namespace Fieldbus.Cli

open Report Fallible

variable {c : Crates} {d : Disk} {F : Type} [Scalar F]

/-! ## One answer -/

/-- The result file that an invocation names. -/
def Invocation.out (i : Invocation) : Option String :=
  match command i.args with
  | .ok (.run _ rest) => (parseOpts rest).toOption.bind Opts.out
  | .ok (.report rest) => (parseReport rest).toOption.bind ReportOpts.out
  | _ => none

/-- An invocation touches no file but the one that it names. -/
theorem run_file (i : Invocation) (name : String) :
    (i.run c F d).1.file name = d.file name ∨ ∃ out, i.out = some out ∧ c.resolve out = name := by
  unfold Invocation.run dispatch
  split
  · rename_i control rest hcommand
    unfold cmdRun
    split
    · exact .inl rfl
    · rename_i k hconduct
      obtain ⟨p, hplan, -, hout⟩ := conduct_eq_ok_iff.mp hconduct
      obtain ⟨o, ho, hsome, -⟩ := plan_eq_ok_iff.mp hplan
      obtain hsame | ⟨hname, -⟩ := write_json_file c i.attempt d k.out (c.runText k.report) name
      · exact .inl hsame
      · refine .inr ⟨p.out, ?_, by rw [hname, hout]⟩
        simp only [Invocation.out, hcommand, ho, Except.toOption, Option.bind_some, hsome]
  · rename_i rest hcommand
    unfold cmdReport
    split
    · exact .inl rfl
    · rename_i out e hassemble
      obtain ⟨o, _, _, _, ho, hsome, -⟩ := assemble_eq_ok_iff.mp hassemble
      obtain hsame | ⟨hname, -⟩ := write_json_file c i.attempt d out (c.completionText e) name
      · exact .inl hsame
      · refine .inr ⟨out, ?_, hname.symm⟩
        simp only [Invocation.out, hcommand, ho, Except.toOption, Option.bind_some, hsome]
  · exact .inl rfl
  · exact .inl rfl

/-- A file that no invocation of a session names stays as it is. -/
theorem after_file (session : List Invocation) {name : String}
    (hname : ∀ i ∈ session, ∀ out, i.out = some out → c.resolve out ≠ name) (d : Disk) :
    (after c F d session).file name = d.file name := by
  induction session generalizing d with
  | nil => rfl
  | cons i rest ih =>
      rw [after, Machine.final_cons, ← after,
        ih (fun j hj => hname j (List.mem_cons_of_mem _ hj))]
      refine (run_file i name).resolve_right ?_
      rintro ⟨out, hout, hresolve⟩
      exact hname i List.mem_cons_self out hout hresolve

/-- What an answer rests on: the text of the report is in the result file. -/
theorem run_eq_ok {i : Invocation} {verdict : Bool} (h : (i.run c F d).2 = .ok verdict) :
    (command i.args = .ok .help ∧ verdict = true) ∨
    (∃ control p r text, i.Runs c F d control p r verdict ∧ i.out = some p.out ∧
      c.runText r = .ok text ∧
      (i.run c F d).1 = d.put (c.resolve p.out) (Utf8.encode (text ++ "\n"))) ∨
    ∃ args out e text, command i.args = .ok (.report args) ∧ i.out = some out ∧
      assemble c d args = .ok (out, e) ∧ e.summary.overallPass = verdict ∧
      c.completionText e = .ok text ∧
      (i.run c F d).1 = d.put (c.resolve out) (Utf8.encode (text ++ "\n")) := by
  unfold Invocation.run dispatch at h ⊢
  cases hcommand : command i.args with
  | error e =>
      rw [hcommand] at h
      cases h
  | ok asked =>
      rw [hcommand] at h
      cases asked with
      | help => exact .inl ⟨rfl, (Except.ok.inj h).symm⟩
      | run control rest =>
          refine .inr (.inl ?_)
          dsimp only [cmdRun] at h ⊢
          cases hconduct : conduct c F i.surroundings d rest control with
          | error e =>
              rw [hconduct] at h
              cases h
          | ok k =>
              rw [hconduct] at h
              obtain ⟨_, hwritten, hverdict⟩ := map_ok_iff.mp h
              obtain rfl : k.verdict = verdict := hverdict
              obtain ⟨text, htext, hput⟩ := write_json_ok hwritten
              obtain ⟨p, hplan, hreport, hout⟩ := conduct_eq_ok_iff.mp hconduct
              obtain ⟨o, ho, hsome, -⟩ := plan_eq_ok_iff.mp hplan
              refine ⟨control, p, k.report, text, ⟨rest, hcommand, hplan, hreport⟩, ?_, htext, ?_⟩
              · simp only [Invocation.out, hcommand, ho, Except.toOption, Option.bind_some, hsome]
              · rw [← hout]
                exact hput
      | report rest =>
          refine .inr (.inr ?_)
          dsimp only at h ⊢
          obtain ⟨out, e, hassemble, hwritten, hverdict⟩ := cmd_report_eq_ok_iff.mp h
          obtain ⟨text, htext, hput⟩ := write_json_ok hwritten
          obtain ⟨o, _, _, _, ho, hsome, -⟩ := assemble_eq_ok_iff.mp hassemble
          refine ⟨rest, out, e, text, rfl, ?_, hassemble, hverdict, htext, ?_⟩
          · simp only [Invocation.out, hcommand, ho, Except.toOption, Option.bind_some, hsome]
          · rw [cmdReport, hassemble]
            exact hput

/-- What an answer rests on, also later in a session, as long as no other invocation names the same
result file. The answer to a run or a control is the verdict on a report that can still be read
back from its file, and the answer to `report` the overall verdict in the evidence that its file
holds. -/
theorem answer_lasts (hc : c.Documents) (before later : List Invocation) (i : Invocation)
    {verdict : Bool} (h : (i.run c F (after c F d before)).2 = .ok verdict)
    (hlater : ∀ out, i.out = some out → ∀ j ∈ later, ∀ out', j.out = some out' →
      c.resolve out' ≠ c.resolve out) :
    (command i.args = .ok .help ∧ verdict = true) ∨
    (∃ control p r, i.Runs c F (after c F d before) control p r verdict ∧
      Judged r control verdict ∧
      readRun c (after c F d (before ++ i :: later)) p.out = .ok r) ∨
    ∃ args out e text, command i.args = .ok (.report args) ∧
      assemble c (after c F d before) args = .ok (out, e) ∧ e.summary.overallPass = verdict ∧
      c.completionText e = .ok text ∧
      (after c F d (before ++ i :: later)).file (c.resolve out) =
        .ok (Utf8.encode (text ++ "\n")) := by
  have hkept : ∀ out, i.out = some out →
      (after c F d (before ++ i :: later)).file (c.resolve out) =
        (i.run c F (after c F d before)).1.file (c.resolve out) := by
    intro out hout
    rw [after, Machine.final_append, Machine.final_cons, ← after, ← after]
    exact after_file later (hlater out hout) _
  obtain hhelp | ⟨control, p, r, text, hruns, hout, htext, hput⟩ |
    ⟨args, out, e, text, hcommand, hout, hassemble, hverdict, htext, hput⟩ := run_eq_ok h
  · exact .inl hhelp
  · have hjudged : Judged r control verdict := by
      obtain ⟨_, _, _, hreport⟩ := hruns
      exact (report_judged hreport).2
    refine .inr (.inl ⟨control, p, r, hruns, hjudged, ?_⟩)
    refine read_run_eq_ok_iff.mpr ⟨text ++ "\n", ?_, hc.run r text htext⟩
    rw [hkept p.out hout, hput]
    exact put_same ..
  · refine .inr (.inr ⟨args, out, e, text, hcommand, hassemble, hverdict, htext, ?_⟩)
    rw [hkept out hout, hput]
    exact put_same ..

/-! ## Reports -/

/-- What a plan reports adds up. -/
theorem plan_adds_up {p : Plan} {s : Surroundings} {control : Option Control} {r : RunReport}
    {verdict : Bool} (h : p.report F s control = .ok (r, verdict)) :
    r.AddsUp p.manifest.verdicts.positiveGate := by
  have hreport := report_adds_up (F := F) s (SimBus.new p.seed p.mechanism.faults : SimBus F) p.cfg
    p.mechanism.controlThreadPolicy p.mechanism.contention p.runId p.cfg.mode p.cfg.periodUs
    p.manifest p.manifestRef
  unfold Plan.report at h
  cases control with
  | none =>
      obtain ⟨rfl, -⟩ := Prod.mk.inj (Except.ok.inj h)
      exact hreport
  | some which =>
      cases which with
      | cpuHog =>
          obtain ⟨rfl, -⟩ := Prod.mk.inj (Except.ok.inj h)
          exact hreport.with_control _
      | canCorrupt | sensorFreeze =>
          simp only [judge, bind_ok_iff, pure_ok_iff, Prod.mk.injEq] at h
          obtain ⟨_, -, rfl, -⟩ := h
          exact hreport.with_control _

/-- What a file says that reads as a run report, after any session on a disk that held none: the
figures of a run that was made, which add up, and a verdict of its gate that can be read off them
with the manifest of that run. -/
theorem files_add_up (hc : c.Documents) (hclean : ∀ name r, ¬ Holds c d name r)
    (session : List Invocation) {name : String} {r : RunReport}
    (h : Holds c (after c F d session) name r) :
    ∃ control p i verdict, Made c F d session name control p i r verdict ∧
      r.AddsUp p.manifest.verdicts.positiveGate ∧ Judged r control verdict := by
  obtain ⟨control, p, i, verdict, hmade⟩ := holds_after hc hclean session h
  exact ⟨control, p, i, verdict, hmade, plan_adds_up hmade.report, (report_judged hmade.report).2⟩

/-! ## Evidence -/

/-- Every element of the first list has a partner. -/
theorem exists_of_forall₂ {α β : Type} {R : α → β → Prop} {xs : List α} {ys : List β}
    (h : List.Forall₂ R xs ys) {x : α} (hx : x ∈ xs) : ∃ y ∈ ys, R x y := by
  induction h with
  | nil => cases hx
  | cons hxy _ ih =>
      obtain rfl | hx := List.mem_cons.mp hx
      · exact ⟨_, List.mem_cons_self, hxy⟩
      · obtain ⟨y, hy, hr⟩ := ih hx
        exact ⟨y, List.mem_cons_of_mem _ hy, hr⟩

/-- What a passing evidence file rests on, whatever else was done on the disk and in whatever order,
also by invocations whose writes failed halfway, if it held no run report at the start. Each
positive file given reads as the report of a run that passed the gate of its manifest, and each
control file as that of a control which was caught; a control that was caught is no positive run. -/
theorem passing_evidence (hc : c.Documents) (hclean : ∀ name r, ¬ Holds c d name r)
    (session : List Invocation) (i : Invocation) {args : List String}
    (hcommand : command i.args = .ok (.report args))
    (hpass : (i.run c F (after c F d session)).2 = .ok true) :
    ∃ o, parseReport args = .ok o ∧ o.positives ≠ [] ∧ o.controls ≠ [] ∧
      (∀ path ∈ o.positives, ∃ control p j r verdict,
        Holds c (after c F d session) (c.resolve path) r ∧
        Made c F d session (c.resolve path) control p j r verdict ∧
        (evaluatePositiveGate (p.result F j.surroundings).outcome p.manifest.verdicts).pass = true ∧
        (verdict = true ↔ control = none)) ∧
      (∀ path ∈ o.controls, ∃ which p j r,
        Holds c (after c F d session) (c.resolve path) r ∧
        Made c F d session (c.resolve path) (some which) p j r true) := by
  rw [Invocation.run, dispatch, hcommand] at hpass
  obtain ⟨out, e, hassemble, -, hoverall⟩ := cmd_report_eq_ok_iff.mp hpass
  obtain ⟨o, first, positiveRuns, negativeControls, ho, -, hpositive, hcontrol, hpositives,
    hcontrols, -, rfl⟩ := assemble_eq_ok_iff.mp hassemble
  obtain ⟨hgates, hcaught⟩ := (completion_pass_iff _ _ _).mp hoverall
  refine ⟨o, ho, hpositive, hcontrol, fun path hpath => ?_, fun path hpath => ?_⟩
  · obtain ⟨r, hr, hholds⟩ := exists_of_forall₂ hpositives hpath
    obtain ⟨control, p, j, verdict, hmade⟩ := holds_after hc hclean session hholds
    refine ⟨control, p, j, r, verdict, hholds, hmade, ?_⟩
    obtain ⟨hgate, hjudged⟩ := report_judged hmade.report
    have hr := hgates r hr
    refine ⟨hgate ▸ hr, fun hverdict => ?_, fun hnone => (hjudged.positive hnone).1.trans hr⟩
    by_contra hne
    have hfails := hjudged.exclusive hne hverdict
    rw [hr] at hfails
    cases hfails
  · obtain ⟨r, hr, hholds⟩ := exists_of_forall₂ hcontrols hpath
    obtain ⟨control, p, j, verdict, hmade⟩ := holds_after hc hclean session hholds
    have hjudged := (report_judged hmade.report).2
    have hr := hcaught r hr
    cases control with
    | none =>
        rw [wasCaught, (hjudged.positive rfl).2] at hr
        cases hr
    | some which =>
        have hverdict := hjudged.caught (by simp)
        rw [wasCaught, hverdict] at hr
        obtain rfl : verdict = true := hr
        exact ⟨which, p, j, r, hholds, hmade⟩

/-! ## On the frozen manifest -/

/-- A run in virtual time with the frozen manifest. -/
def rehearsal (control : Option Control) (out : String) : Step defaultPath where
  control := control
  options := ["--mode", "virtual-time", "--out", out]
  opts := ⟨none, none, none, .virtual, defaultPath, none, some out⟩
  out := out
  surroundings := .idle
  parsed := rfl
  reads := rfl
  writes := rfl

/-- A run of the script names its own file. -/
theorem out_step {manifest : String} (step : Step manifest) :
    step.invocation.out = some step.out := by
  simp only [Invocation.out, command_step, step.parsed, Except.toOption, Option.bind_some,
    step.writes]

/-- A run of the frozen manifest in virtual time does what it says. -/
theorem rehearsal_alone {control : Option Control} {out : String} {mech : Mechanism}
    (hmech : mechanism .idle frozenManifest 10000 control = .ok mech)
    (hyes : ∀ p : Plan, p.manifest = frozenManifest → p.cfg = ⟨10000, 10000, 80000, .virtual⟩ →
      p.Rehearsed control) :
    (rehearsal control out).alone .reference ℚ .initial = .ok true := by
  obtain ⟨p, hplan, -, hmanifest, hcfg⟩ := plan_initial (rehearsal control out).parsed rfl rfl hmech
  have hcfg : p.cfg = ⟨10000, 10000, 80000, .virtual⟩ := hcfg
  have h : RunState.Virtual p.cfg := by
    rw [hcfg]
    exact ⟨rfl, by decide, by decide⟩
  obtain ⟨verdict, hrun, hverdict⟩ := rehearsal_returns (F := ℚ) reference_prints
    (command_step (rehearsal control out)) hplan rfl h (by rw [hcfg]; decide)
  rw [hverdict.mpr (hyes p hmanifest hcfg)] at hrun
  exact hrun

/-- A run and `sensor-freeze` in virtual time, and a report on both. -/
theorem passing_evidence_rehearsal :
    let g : Gate defaultPath :=
      ⟨[rehearsal none "run.json", rehearsal (some .sensorFreeze) "freeze.json"], "all.json", .idle⟩
    ∃ which p j r,
      Holds .reference (after .reference ℚ .initial (g.steps.map Step.invocation)) "freeze.json" r ∧
      Made .reference ℚ .initial (g.steps.map Step.invocation) "freeze.json" (some which) p j r
        true := by
  intro g
  have hready : g.Ready .reference .initial :=
    { positive := ⟨_, List.mem_cons_self, rfl⟩
      control := ⟨_, List.mem_cons_of_mem _ List.mem_cons_self, by decide⟩
      apart := by decide
      unread := by decide
      clean := fun _ _ => initial_clean _ }
  have hrun : (rehearsal none "run.json").alone .reference ℚ .initial = .ok true :=
    rehearsal_alone rfl fun p hmanifest hcfg => by
      simp only [Plan.Rehearsed, hmanifest]
      exact .inr (by decide)
  have hfreeze : (rehearsal (some .sensorFreeze) "freeze.json").alone .reference ℚ .initial =
      .ok true :=
    rehearsal_alone rfl fun p hmanifest hcfg => by
      simp only [Plan.Rehearsed, hmanifest, hcfg]
      refine ⟨_, 5000, rfl, rfl, by decide, by decide, fun bound hbound => ?_, .inl rfl⟩
      obtain rfl := Option.some.inj hbound
      decide
  have hpass : (g.run .reference ℚ .initial).2 = .ok true := by
    refine (gate_passes_iff reference_documents reference_prints hready).mpr ?_
    exact List.forall_mem_cons.mpr ⟨hrun, List.forall_mem_singleton.mpr hfreeze⟩
  obtain ⟨o, ho, -, -, -, hcontrols⟩ := passing_evidence reference_documents initial_clean
    (g.steps.map Step.invocation) g.report rfl hpass
  obtain rfl := Except.ok.inj ((parse_report_gate g).symm.trans ho)
  exact hcontrols "freeze.json" List.mem_cons_self

/-- A run on the frozen manifest, and `sensor-freeze` after it with another result file. -/
theorem answer_lasts_run :
    ∃ control p r,
      (rehearsal none "run.json").invocation.Runs .reference ℚ .initial control p r true ∧
      Judged r control true ∧
      readRun .reference (after .reference ℚ .initial [(rehearsal none "run.json").invocation,
        (rehearsal (some .sensorFreeze) "freeze.json").invocation]) p.out = .ok r := by
  have hinitial : after .reference ℚ .initial [] = .initial := rfl
  have hrun : ((rehearsal none "run.json").invocation.run .reference ℚ
      (after .reference ℚ .initial [])).2 = .ok true := by
    rw [hinitial, ← Step.alone]
    refine rehearsal_alone rfl fun p hmanifest hcfg => ?_
    simp only [Plan.Rehearsed, hmanifest]
    exact .inr (by decide)
  have hlater : ∀ out, (rehearsal none "run.json").invocation.out = some out →
      ∀ j ∈ [(rehearsal (some .sensorFreeze) "freeze.json").invocation], ∀ out', j.out = some out' →
        Crates.reference.resolve out' ≠ Crates.reference.resolve out := by
    intro out hout j hj out' hout'
    obtain rfl := List.mem_singleton.mp hj
    rw [out_step] at hout hout'
    obtain rfl : "run.json" = out := Option.some.inj hout
    obtain rfl : "freeze.json" = out' := Option.some.inj hout'
    decide
  obtain ⟨hhelp, -⟩ | hreport | ⟨_, _, _, _, hreport, -⟩ :=
    answer_lasts reference_documents [] _ (rehearsal none "run.json").invocation hrun hlater
  · rw [command_step] at hhelp
    cases hhelp
  · rw [hinitial] at hreport
    exact hreport
  · rw [command_step] at hreport
    cases hreport

theorem after_singleton (i : Invocation) : after c F d [i] = (i.run c F d).1 := rfl

/-- The report of a run on the frozen manifest. -/
theorem files_add_up_run :
    ∃ r control p i verdict, Made .reference ℚ .initial [(rehearsal none "run.json").invocation]
        "run.json" control p i r verdict ∧
      r.AddsUp p.manifest.verdicts.positiveGate ∧ Judged r control verdict := by
  have hrun : (rehearsal none "run.json").alone .reference ℚ .initial = .ok true := by
    refine rehearsal_alone rfl fun p hmanifest hcfg => ?_
    simp only [Plan.Rehearsed, hmanifest]
    exact .inr (by decide)
  obtain ⟨r, hconduct⟩ := (alone_eq_ok_iff reference_prints _ true).mp hrun
  have hholds := (holds_step_iff reference_documents reference_prints (rehearsal none "run.json")
    (initial_clean _) r).mpr ⟨true, hconduct⟩
  rw [← after_singleton] at hholds
  exact ⟨r, files_add_up reference_documents initial_clean _ hholds⟩

end Fieldbus.Cli
