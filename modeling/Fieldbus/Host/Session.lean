import Fieldbus.Host.ResultFile
import Fieldbus.Host.Verdicts

/-!
# Sessions

The program run again and again on one disk, in any order of subcommands. An invocation touches one
file (`write_json_file`), and a file that reads as a run report was written by a run
(`holds_after`).
-/

namespace Fieldbus.Cli

open Report Fallible

/-- A file reads as a run report. -/
def Holds (c : Crates) (d : Disk) (name : String) (r : RunReport) : Prop :=
  ∃ text, d.file name = .ok (Utf8.encode text) ∧ c.readRun text = .ok r

variable {c : Crates} {d : Disk}

theorem ok_or_eq_ok_iff {α : Type} {value : Option α} {message : String} {a : α} :
    okOr value message = .ok a ↔ value = some a := by
  cases value <;> simp [okOr]

theorem map_error_eq_ok_iff {α : Type} {x : Except String α} {f : String → String} {a : α} :
    x.mapError f = .ok a ↔ x = .ok a := by
  cases x <;> simp [Except.mapError]

/-- A run report is read from a file that holds it. -/
theorem read_run_eq_ok_iff {path : String} {r : RunReport} :
    readRun c d path = .ok r ↔ Holds c d (c.resolve path) r := by
  simp only [readRun, readToString, read, bind_ok_iff, map_error_eq_ok_iff, ok_or_eq_ok_iff,
    Utf8.decode_eq_some_iff, Holds]
  constructor
  · rintro ⟨text, ⟨_, hfile, rfl⟩, hread⟩
    exact ⟨text, hfile, hread⟩
  · rintro ⟨text, hfile, hread⟩
    exact ⟨text, ⟨_, hfile, rfl⟩, hread⟩

/-! ## One invocation -/

@[simp] theorem put_same (name : String) (bytes : List UInt8) :
    (d.put name bytes).file name = .ok bytes := Function.update_self ..

theorem put_other {name name' : String} (h : name' ≠ name) (bytes : List UInt8) :
    (d.put name bytes).file name' = d.file name' := Function.update_of_ne h ..

/-- Writing touches one file, and puts a beginning of the text there. -/
theorem write_json_file (c : Crates) (w : WriteAttempt) (d : Disk) (path : String)
    (text : Except String String) (name : String) :
    (writeJson c w d path text).1.file name = d.file name ∨
      name = c.resolve path ∧ ∃ t bytes, text = .ok t ∧ bytes <+: Utf8.encode (t ++ "\n") ∧
        (writeJson c w d path text).1.file name = .ok bytes := by
  by_cases hname : name = c.resolve path
  · subst hname
    unfold writeJson
    split
    · exact .inl rfl
    · exact .inl rfl
    · rename_i t _
      dsimp only
      split
      · exact .inr ⟨rfl, t, _, rfl, List.prefix_refl _, put_same ..⟩
      · exact .inr ⟨rfl, t, _, rfl, List.take_prefix .., put_same ..⟩
      · exact .inl rfl
  · left
    unfold writeJson
    split
    · rfl
    · rfl
    · dsimp only
      split
      · exact put_other hname _
      · exact put_other hname _
      · rfl

/-- Writing succeeds if the whole text is there. -/
theorem write_json_ok {w : WriteAttempt} {path : String} {text : Except String String}
    (h : (writeJson c w d path text).2 = .ok ()) :
    ∃ t, text = .ok t ∧
      (writeJson c w d path text).1 = d.put (c.resolve path) (Utf8.encode (t ++ "\n")) := by
  unfold writeJson at h ⊢
  split at h
  · cases h
  · cases h
  · rename_i t _
    refine ⟨t, rfl, ?_⟩
    dsimp only at h ⊢
    split at h
    · rfl
    · cases h
    · cases h

/-- Nothing stands in the way of writing. -/
theorem write_json_done (c : Crates) (d : Disk) (path text : String) :
    writeJson c ⟨.ok (), .ok ()⟩ d path (.ok text) =
      (d.put (c.resolve path) (Utf8.encode (text ++ "\n")), .ok ()) := by
  have hparent : createParent ⟨.ok (), .ok ()⟩ path = .ok () := by
    unfold createParent
    split
    · split <;> rfl
    · rfl
  simp only [writeJson, hparent]

variable {F : Type} [Scalar F]

/-- An invocation plans a run and reports it. -/
def Invocation.Runs (i : Invocation) (c : Crates) (F : Type) [Scalar F] (d : Disk)
    (control : Option Control) (p : Plan) (r : RunReport) (verdict : Bool) : Prop :=
  ∃ rest, command i.args = .ok (.run control rest) ∧
    plan c i.surroundings d rest control = .ok p ∧
    p.report F i.surroundings control = .ok (r, verdict)

/-- What a run is told to do. -/
theorem plan_eq_ok_iff {s : Surroundings} {args : List String} {control : Option Control}
    {p : Plan} :
    plan c s d args control = .ok p ↔ ∃ o, parseOpts args = .ok o ∧ o.out = some p.out ∧
      load c d o.manifest = .ok p.manifest ∧ manifestRef c d o.manifest = .ok p.manifestRef ∧
      mechanism s p.manifest p.cfg.cycles control = .ok p.mechanism ∧
      p.runId = o.runId.getD ((control.map Control.id).getD "positive") ∧
      p.seed = o.seed.getD p.manifest.loop.seed ∧
      p.cfg = ⟨o.cycles.getD p.manifest.loop.cycles,
        o.periodUs.getD p.manifest.loop.targetPeriodUs, p.manifest.watchdog.timeoutUs, o.mode⟩ := by
  simp only [plan, bind_ok_iff, pure_ok_iff, ok_or_eq_ok_iff]
  constructor
  · rintro ⟨o, ho, out, hout, m, hload, r, href, mech, hmech, rfl⟩
    exact ⟨o, ho, hout, hload, href, hmech, rfl, rfl, rfl⟩
  · obtain ⟨out, runId, seed, cfg, mech, m, r⟩ := p
    rintro ⟨o, ho, hout, hload, href, hmech, hid, hseed, hcfg⟩
    dsimp only at hid hseed hcfg
    subst hid hseed hcfg
    exact ⟨o, ho, out, hout, m, hload, r, href, mech, hmech, rfl⟩

/-- What a run on the frozen manifest is told to do. -/
theorem plan_initial {s : Surroundings} {args : List String} {control : Option Control} {o : Opts}
    {out : String} {mech : Mechanism} (ho : parseOpts args = .ok o) (hout : o.out = some out)
    (hmanifest : o.manifest = defaultPath)
    (hmech : mechanism s frozenManifest (o.cycles.getD 10000) control = .ok mech) :
    ∃ p, plan Crates.reference s .initial args control = .ok p ∧ p.out = out ∧
      p.manifest = frozenManifest ∧
      p.cfg = ⟨o.cycles.getD 10000, o.periodUs.getD 10000, 80000, o.mode⟩ := by
  obtain ⟨ref, href⟩ : ∃ ref, manifestRef Crates.reference .initial o.manifest = .ok ref := by
    rw [hmanifest, manifestRef, read]
    exact ⟨_, bind_ok_iff.mpr ⟨_, map_error_eq_ok_iff.mpr initial_file, rfl⟩⟩
  refine ⟨⟨out, o.runId.getD ((control.map Control.id).getD "positive"), o.seed.getD 20260909,
    ⟨o.cycles.getD 10000, o.periodUs.getD 10000, 80000, o.mode⟩, mech, frozenManifest, ref⟩,
    plan_eq_ok_iff.mpr ⟨o, ho, hout, ?_, href, hmech, rfl, rfl, rfl⟩, rfl, rfl, rfl⟩
  rw [hmanifest]
  exact reference_load initial_file

/-- What a run has found out is the report of its plan. -/
theorem conduct_eq_ok_iff {s : Surroundings} {rest : List String} {control : Option Control}
    {k : Conduct} :
    conduct c F s d rest control = .ok k ↔ ∃ p, plan c s d rest control = .ok p ∧
      p.report F s control = .ok (k.report, k.verdict) ∧ k.out = p.out := by
  simp only [conduct, bind_ok_iff, pure_ok_iff]
  constructor
  · rintro ⟨p, hp, ⟨r, verdict⟩, hreport, rfl⟩
    exact ⟨p, hp, hreport, rfl⟩
  · rintro ⟨p, hp, hreport, hout⟩
    exact ⟨p, hp, _, hreport, by rw [← hout]⟩

/-- What a file reads as after an invocation: what it was, or the report of the run just made. -/
theorem holds_run (hc : c.Documents) (i : Invocation) {name : String} {r : RunReport}
    (h : Holds c (i.run c F d).1 name r) :
    Holds c d name r ∨
      ∃ control p verdict, i.Runs c F d control p r verdict ∧ c.resolve p.out = name := by
  obtain ⟨text, hfile, hread⟩ := h
  unfold Invocation.run dispatch at hfile
  split at hfile
  · rename_i control rest hcommand
    unfold cmdRun at hfile
    split at hfile
    · exact .inl ⟨text, hfile, hread⟩
    · rename_i k hconduct
      obtain hsame | ⟨hname, t, bytes, ht, hprefix, hbytes⟩ :=
        write_json_file c i.attempt d k.out (c.runText k.report) name
      · exact .inl ⟨text, hsame.symm.trans hfile, hread⟩
      · obtain rfl := Except.ok.inj (hbytes.symm.trans hfile)
        obtain rfl := hc.cut k.report t ht text (Utf8.prefix_of_encode hprefix) r hread
        obtain ⟨p, hplan, hreport, hout⟩ := conduct_eq_ok_iff.mp hconduct
        refine .inr ⟨control, p, k.verdict, ⟨rest, hcommand, hplan, hreport⟩, ?_⟩
        rw [hname, hout]
  · unfold cmdReport at hfile
    split at hfile
    · exact .inl ⟨text, hfile, hread⟩
    · rename_i out evidence _
      obtain hsame | ⟨-, t, bytes, ht, hprefix, hbytes⟩ :=
        write_json_file c i.attempt d out (c.completionText evidence) name
      · exact .inl ⟨text, hsame.symm.trans hfile, hread⟩
      · obtain rfl := Except.ok.inj (hbytes.symm.trans hfile)
        exact absurd hread (hc.completion evidence t ht text (Utf8.prefix_of_encode hprefix) r)
  · exact .inl ⟨text, hfile, hread⟩
  · exact .inl ⟨text, hfile, hread⟩

/-! ## Verdicts -/

/-- How the verdict of a run goes with its report. -/
structure Judged (r : RunReport) (control : Option Control) (verdict : Bool) : Prop where
  positive : control = none → verdict = r.gate.pass ∧ r.control = none
  caught : control ≠ none → (r.control.map ControlReport.caught) = some verdict
  exclusive : control ≠ none → verdict = true → r.gate.pass = false

theorem report_judged {p : Plan} {s : Surroundings} {control : Option Control} {r : RunReport}
    {verdict : Bool} (h : p.report F s control = .ok (r, verdict)) :
    r.gate = evaluatePositiveGate (p.result F s).outcome p.manifest.verdicts ∧
      Judged r control verdict := by
  unfold Plan.report at h
  cases control with
  | none =>
      obtain ⟨rfl, rfl⟩ := Prod.mk.inj (Except.ok.inj h)
      exact ⟨rfl, fun _ => ⟨rfl, rfl⟩, fun hne => absurd rfl hne, fun hne => absurd rfl hne⟩
  | some which =>
      cases which with
      | cpuHog =>
          obtain ⟨rfl, rfl⟩ := Prod.mk.inj (Except.ok.inj h)
          refine ⟨rfl, fun hnone => (nomatch hnone), fun _ => rfl, fun _ hcaught => ?_⟩
          simpa [evaluateCpuHog] using hcaught
      | canCorrupt =>
          simp only [judge, bind_ok_iff, pure_ok_iff, Prod.mk.injEq] at h
          obtain ⟨spec, -, rfl, rfl⟩ := h
          refine ⟨rfl, fun hnone => (nomatch hnone), fun _ => rfl, fun _ hcaught => ?_⟩
          exact ((can_corrupt_caught_iff _ _ _).mp hcaught).gate_fails
      | sensorFreeze =>
          simp only [judge, bind_ok_iff, pure_ok_iff, Prod.mk.injEq] at h
          obtain ⟨spec, -, rfl, rfl⟩ := h
          refine ⟨rfl, fun hnone => (nomatch hnone), fun _ => rfl, fun _ hcaught => ?_⟩
          exact ((sensor_freeze_caught_iff _ _ _).mp hcaught).gate_fails

/-! ## Evidence -/

/-- Evidence passes if every run and every control in it does. -/
theorem completion_pass_iff (first : RunReport) (positiveRuns negativeControls : List RunReport) :
    (completion first positiveRuns negativeControls).summary.overallPass = true ↔
      (∀ r ∈ positiveRuns, r.gate.pass = true) ∧ ∀ r ∈ negativeControls, wasCaught r = true := by
  have hboth : (completion first positiveRuns negativeControls).summary.overallPass =
      (positiveRuns.countP (fun r => r.gate.pass) == positiveRuns.length &&
        negativeControls.countP wasCaught == negativeControls.length) := rfl
  rw [hboth, Bool.and_eq_true, beq_iff_eq, beq_iff_eq, List.countP_eq_length,
    List.countP_eq_length]

/-- What `report` assembles: the reports in the files given, some of either kind. -/
theorem assemble_eq_ok_iff {args : List String} {out : String} {e : CompletionReport} :
    assemble c d args = .ok (out, e) ↔ ∃ o first positiveRuns negativeControls,
      parseReport args = .ok o ∧ o.out = some out ∧ o.positives ≠ [] ∧ o.controls ≠ [] ∧
      List.Forall₂ (fun path r => Holds c d (c.resolve path) r) o.positives positiveRuns ∧
      List.Forall₂ (fun path r => Holds c d (c.resolve path) r) o.controls negativeControls ∧
      positiveRuns.head? = some first ∧ e = completion first positiveRuns negativeControls := by
  simp only [assemble, bind_ok_iff, ok_or_eq_ok_iff]
  constructor
  · rintro ⟨o, ho, _, hout, hrest⟩
    split at hrest
    · cases hrest
    · rename_i hsome
      simp only [bind_ok_iff, pure_ok_iff, ok_or_eq_ok_iff, mapM_ok_iff, read_run_eq_ok_iff,
        Prod.mk.injEq] at hrest
      obtain ⟨positiveRuns, hpositives, negativeControls, hcontrols, first, hfirst, rfl, rfl⟩ :=
        hrest
      rw [not_or] at hsome
      exact ⟨o, first, positiveRuns, negativeControls, ho, hout, hsome.1, hsome.2, hpositives,
        hcontrols, hfirst, rfl⟩
  · rintro ⟨o, first, positiveRuns, negativeControls, ho, hout, hpositive, hcontrol, hpositives,
      hcontrols, hfirst, rfl⟩
    refine ⟨o, ho, out, hout, ?_⟩
    rw [if_neg (by simp [hpositive, hcontrol])]
    simp only [bind_ok_iff, pure_ok_iff, ok_or_eq_ok_iff, mapM_ok_iff, read_run_eq_ok_iff]
    exact ⟨positiveRuns, hpositives, negativeControls, hcontrols, first, hfirst, rfl⟩

/-- What a report of the evidence returns. -/
theorem cmd_report_eq_ok_iff {w : WriteAttempt} {args : List String} {verdict : Bool} :
    (cmdReport c w d args).2 = .ok verdict ↔ ∃ out e, assemble c d args = .ok (out, e) ∧
      (writeJson c w d out (c.completionText e)).2 = .ok () ∧
      e.summary.overallPass = verdict := by
  unfold cmdReport
  cases hassemble : assemble c d args with
  | error e => simp
  | ok result =>
      obtain ⟨out, e⟩ := result
      simp only [map_ok_iff, Except.ok.injEq, Prod.mk.injEq]
      constructor
      · rintro ⟨_, hwritten, hpass⟩
        exact ⟨out, e, ⟨rfl, rfl⟩, hwritten, hpass⟩
      · rintro ⟨_, _, ⟨rfl, rfl⟩, hwritten, hpass⟩
        exact ⟨(), hwritten, hpass⟩

/-! ## Any number of invocations -/

/-- The disk after a session. -/
def after (c : Crates) (F : Type) [Scalar F] (d : Disk) (session : List Invocation) : Disk :=
  Machine.final (Invocation.run c F) d session

/-- An invocation of a session made a run whose result file has the given name. -/
def Made (c : Crates) (F : Type) [Scalar F] (d : Disk) (session : List Invocation)
    (name : String) (control : Option Control) (p : Plan) (i : Invocation) (r : RunReport)
    (verdict : Bool) : Prop :=
  ∃ before later, session = before ++ i :: later ∧
    i.Runs c F (after c F d before) control p r verdict ∧ c.resolve p.out = name

theorem Made.report {session : List Invocation} {name : String} {control : Option Control}
    {p : Plan} {i : Invocation} {r : RunReport} {verdict : Bool}
    (h : Made c F d session name control p i r verdict) :
    p.report F i.surroundings control = .ok (r, verdict) := by
  obtain ⟨_, _, -, ⟨_, -, -, hreport⟩, -⟩ := h
  exact hreport

/-- If no file read as a run report at the start, one that does later is the result of a run. -/
theorem holds_after (hc : c.Documents) (hclean : ∀ name r, ¬ Holds c d name r)
    (session : List Invocation) {name : String} {r : RunReport}
    (h : Holds c (after c F d session) name r) :
    ∃ control p i verdict, Made c F d session name control p i r verdict := by
  induction session using List.reverseRecOn with
  | nil => exact absurd h (hclean name r)
  | append_singleton session i ih =>
      rw [after, Machine.final_append_singleton] at h
      obtain hbefore | ⟨control, p, verdict, hruns, hname⟩ := holds_run hc i h
      · obtain ⟨control, p, j, verdict, before, later, rfl, hruns, hname⟩ := ih hbefore
        exact ⟨control, p, j, verdict, before, later ++ [i], by simp, hruns, hname⟩
      · exact ⟨control, p, i, verdict, session, [], by simp, hruns, hname⟩

/-- No file of the initial disk reads as a run report. -/
theorem initial_clean (name : String) (r : RunReport) :
    ¬ Holds Crates.reference .initial name r := by
  rintro ⟨text, hfile, hread⟩
  simp only [Disk.initial] at hfile
  split at hfile
  · have hdecode := Utf8.decode_encode text
    rw [← Except.ok.inj hfile, Utf8.decode_encode] at hdecode
    obtain rfl := Option.some.inj hdecode
    have hsame := to_json_eq_of_begins (a := r) (b := frozenManifest) rfl rfl
      (from_printed_eq_ok hread) (by rw [String.toList_append]; exact List.prefix_append ..)
    -- the first field of a run report is no field of a manifest
    have hname := (Prod.mk.inj (List.cons.inj (Json.obj.inj hsame)).1).1
    exact absurd hname (by decide)
  · cases hfile

end Fieldbus.Cli
