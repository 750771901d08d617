import Fieldbus.Library.Document
import Fieldbus.Library.Sha256
import Fieldbus.Host.Program

/-!
# The texts of the files

What `serde_json` makes of the types that derive `Serialize` and `Deserialize` in
`host/src/report.rs` and `host/src/manifest.rs`: the fields in order under the source's names, a
missing value as null. `Crates.reference` prints and reads these trees.
-/

namespace Fieldbus

namespace Report

open Document

/-! ## Reports -/

instance : Document Environment where
  toJson e := .obj [
    ("os", toJson e.os), ("arch", toJson e.arch), ("cpu_model", toJson e.cpuModel),
    ("core_count", toJson e.coreCount), ("scheduling_policy", toJson e.schedulingPolicy),
    ("mode", toJson e.mode), ("clock_mode", toJson e.clockMode),
    ("host_count", toJson e.hostCount), ("physical_can_hardware", toJson e.physicalCanHardware),
    ("hardware_in_the_loop", toJson e.hardwareInTheLoop), ("rtos", toJson e.rtos),
    ("statement", toJson e.statement)]
  ofJson j := do
    return ⟨← required "os" j, ← required "arch" j, ← required "cpu_model" j,
      ← required "core_count" j, ← required "scheduling_policy" j, ← required "mode" j,
      ← required "clock_mode" j, ← required "host_count" j, ← required "physical_can_hardware" j,
      ← required "hardware_in_the_loop" j, ← required "rtos" j, ← required "statement" j⟩
  of_to e := by simp
  not_null _ := Json.noConfusion

instance : Document ManifestRef where
  toJson m := .obj [("path", toJson m.path), ("sha256", toJson m.sha256)]
  ofJson j := do return ⟨← required "path" j, ← required "sha256" j⟩
  of_to m := by simp
  not_null _ := Json.noConfusion

instance : Document JitterReport where
  toJson r := .obj [
    ("p50", toJson r.p50), ("p95", toJson r.p95), ("p99", toJson r.p99), ("max", toJson r.max),
    ("min", toJson r.min), ("mean", toJson r.mean), ("samples", toJson r.samples),
    ("histogram_bucket_width_us", toJson r.histogramBucketWidthUs),
    ("histogram_overflowed", toJson r.histogramOverflowed),
    ("percentile_reporting", toJson r.percentileReporting)]
  ofJson j := do
    return ⟨← required "p50" j, ← required "p95" j, ← required "p99" j, ← required "max" j,
      ← required "min" j, ← required "mean" j, ← required "samples" j,
      ← required "histogram_bucket_width_us" j, ← required "histogram_overflowed" j,
      ← required "percentile_reporting" j⟩
  of_to r := by simp
  not_null _ := Json.noConfusion

instance : Document MissReport where
  toJson m := .obj [
    ("cycle", toJson m.cycle), ("kind", toJson m.kind), ("jitter_us", toJson m.jitterUs),
    ("work_us", toJson m.workUs), ("overrun_us", toJson m.overrunUs)]
  ofJson j := do
    return ⟨← required "cycle" j, ← required "kind" j, ← required "jitter_us" j,
      ← required "work_us" j, ← required "overrun_us" j⟩
  of_to m := by simp
  not_null _ := Json.noConfusion

instance : Document DeadlineReport where
  toJson d := .obj [
    ("count", toJson d.count), ("explained", toJson d.explained),
    ("explained_truncated", toJson d.explainedTruncated), ("definition", toJson d.definition)]
  ofJson j := do
    return ⟨← required "count" j, ← required "explained" j, ← required "explained_truncated" j,
      ← required "definition" j⟩
  of_to d := by simp
  not_null _ := Json.noConfusion

instance : Document CanReport where
  toJson c := .obj [
    ("accepted", toJson c.accepted), ("rejected", toJson c.rejected),
    ("rejected_by_reason", toJson c.rejectedByReason)]
  ofJson j := do
    return ⟨← required "accepted" j, ← required "rejected" j, ← required "rejected_by_reason" j⟩
  of_to c := by simp
  not_null _ := Json.noConfusion

instance : Document WatchdogReport where
  toJson w := .obj [
    ("tripped", toJson w.tripped), ("reason", optionJson w.reason),
    ("reaction_time_us", optionJson w.reactionTimeUs),
    ("reaction_time_definition", toJson w.reactionTimeDefinition),
    ("reaction_bound_us", optionJson w.reactionBoundUs),
    ("reaction_margin_us", optionJson w.reactionMarginUs),
    ("overshoot_past_budget_us", optionJson w.overshootPastBudgetUs),
    ("trip_cycle", optionJson w.tripCycle),
    ("actuator_zero_since_trip", toJson w.actuatorZeroSinceTrip),
    ("timeout_us", toJson w.timeoutUs)]
  ofJson j := do
    return ⟨← required "tripped" j, ← optional "reason" j, ← optional "reaction_time_us" j,
      ← required "reaction_time_definition" j, ← optional "reaction_bound_us" j,
      ← optional "reaction_margin_us" j, ← optional "overshoot_past_budget_us" j,
      ← optional "trip_cycle" j, ← required "actuator_zero_since_trip" j,
      ← required "timeout_us" j⟩
  of_to w := by simp
  not_null _ := Json.noConfusion

instance : Document ThreadPolicyReport where
  toJson t := .obj [
    ("policy", toJson t.policy), ("requested", toJson t.requested), ("granted", toJson t.granted),
    ("detail", toJson t.detail), ("qos_class", toJson t.qosClass)]
  ofJson j := do
    return ⟨← required "policy" j, ← required "requested" j, ← required "granted" j,
      ← required "detail" j, ← required "qos_class" j⟩
  of_to t := by simp
  not_null _ := Json.noConfusion

instance : Document HogReport where
  toJson h := .obj [
    ("threads", toJson h.threads), ("policy", toJson h.policy),
    ("policy_granted", toJson h.policyGranted),
    ("window_start_cycle", toJson h.windowStartCycle),
    ("window_end_cycle", toJson h.windowEndCycle),
    ("misses_inside_window", toJson h.missesInsideWindow),
    ("misses_outside_window", toJson h.missesOutsideWindow),
    ("jitter_inside_window", toJson h.jitterInsideWindow),
    ("jitter_outside_window", toJson h.jitterOutsideWindow),
    ("attribution", toJson h.attribution)]
  ofJson j := do
    return ⟨← required "threads" j, ← required "policy" j, ← required "policy_granted" j,
      ← required "window_start_cycle" j, ← required "window_end_cycle" j,
      ← required "misses_inside_window" j, ← required "misses_outside_window" j,
      ← required "jitter_inside_window" j, ← required "jitter_outside_window" j,
      ← required "attribution" j⟩
  of_to h := by simp
  not_null _ := Json.noConfusion

instance : Document Check where
  toJson c := .obj [
    ("name", toJson c.name), ("expected", toJson c.expected), ("observed", toJson c.observed),
    ("passed", toJson c.passed)]
  ofJson j := do
    return ⟨← required "name" j, ← required "expected" j, ← required "observed" j,
      ← required "passed" j⟩
  of_to c := by simp
  not_null _ := Json.noConfusion

instance : Document GateReport where
  toJson g := .obj [("checks", toJson g.checks), ("pass", toJson g.pass)]
  ofJson j := do return ⟨← required "checks" j, ← required "pass" j⟩
  of_to g := by simp
  not_null _ := Json.noConfusion

instance : Document ControlReport where
  toJson c := .obj [
    ("id", toJson c.id), ("expected", toJson c.expected),
    ("caught_checks", toJson c.caughtChecks), ("caught", toJson c.caught), ("note", toJson c.note)]
  ofJson j := do
    return ⟨← required "id" j, ← required "expected" j, ← required "caught_checks" j,
      ← required "caught" j, ← required "note" j⟩
  of_to c := by simp
  not_null _ := Json.noConfusion

instance : Document RunReport where
  toJson r := .obj [
    ("run_id", toJson r.runId), ("environment", toJson r.environment),
    ("manifest", toJson r.manifest), ("target_period_us", toJson r.targetPeriodUs),
    ("cycles", toJson r.cycles), ("wall_us", toJson r.wallUs), ("jitter_us", toJson r.jitterUs),
    ("missed_deadlines", toJson r.missedDeadlines), ("can", toJson r.can),
    ("watchdog", toJson r.watchdog), ("control_thread_policy", toJson r.controlThreadPolicy),
    ("hog", optionJson r.hog), ("gate", toJson r.gate), ("control", optionJson r.control)]
  ofJson j := do
    return ⟨← required "run_id" j, ← required "environment" j, ← required "manifest" j,
      ← required "target_period_us" j, ← required "cycles" j, ← required "wall_us" j,
      ← required "jitter_us" j, ← required "missed_deadlines" j, ← required "can" j,
      ← required "watchdog" j, ← required "control_thread_policy" j, ← optional "hog" j,
      ← required "gate" j, ← optional "control" j⟩
  of_to r := by simp
  not_null _ := Json.noConfusion

instance : Document Summary where
  toJson s := .obj [
    ("positive_runs_passed", toJson s.positiveRunsPassed),
    ("positive_runs_total", toJson s.positiveRunsTotal),
    ("controls_caught", toJson s.controlsCaught), ("controls_total", toJson s.controlsTotal),
    ("overall_pass", toJson s.overallPass)]
  ofJson j := do
    return ⟨← required "positive_runs_passed" j, ← required "positive_runs_total" j,
      ← required "controls_caught" j, ← required "controls_total" j, ← required "overall_pass" j⟩
  of_to s := by simp
  not_null _ := Json.noConfusion

instance : Document CompletionReport where
  toJson c := .obj [
    ("what", toJson c.what), ("manifest", toJson c.manifest),
    ("environment", toJson c.environment), ("target_period_us", toJson c.targetPeriodUs),
    ("cycles", toJson c.cycles), ("positive_runs", toJson c.positiveRuns),
    ("negative_controls", toJson c.negativeControls), ("summary", toJson c.summary),
    ("limitations", toJson c.limitations)]
  ofJson j := do
    return ⟨← required "what" j, ← required "manifest" j, ← required "environment" j,
      ← required "target_period_us" j, ← required "cycles" j, ← required "positive_runs" j,
      ← required "negative_controls" j, ← required "summary" j, ← required "limitations" j⟩
  of_to c := by simp
  not_null _ := Json.noConfusion

/-! ## The manifest -/

instance : Document LoopSpec where
  toJson l := .obj [
    ("target_period_us", toJson l.targetPeriodUs), ("cycles", toJson l.cycles),
    ("seed", toJson l.seed)]
  ofJson j := do
    return ⟨← required "target_period_us" j, ← required "cycles" j, ← required "seed" j⟩
  of_to l := by simp
  not_null _ := Json.noConfusion

instance : Document WatchdogSpec where
  toJson w := .obj [("timeout_us", toJson w.timeoutUs)]
  ofJson j := do return ⟨← required "timeout_us" j⟩
  of_to w := by simp
  not_null _ := Json.noConfusion

instance : Document PositiveGate where
  toJson g := .obj [
    ("missed_deadlines_max", toJson g.missedDeadlinesMax),
    ("p99_jitter_us_max", toJson g.p99JitterUsMax),
    ("rejected_frames_max", toJson g.rejectedFramesMax),
    ("watchdog_may_trip", toJson g.watchdogMayTrip)]
  ofJson j := do
    return ⟨← required "missed_deadlines_max" j, ← required "p99_jitter_us_max" j,
      ← required "rejected_frames_max" j, ← required "watchdog_may_trip" j⟩
  of_to g := by simp
  not_null _ := Json.noConfusion

instance : Document InjectionCycles where
  toJson i := .obj [
    ("bad_crc", toJson i.badCrc), ("duplicate", toJson i.duplicate),
    ("out_of_order", toJson i.outOfOrder), ("out_of_range", toJson i.outOfRange),
    ("bad_length", toJson i.badLength)]
  ofJson j := do
    return ⟨← required "bad_crc" j, ← required "duplicate" j, ← required "out_of_order" j,
      ← required "out_of_range" j, ← required "bad_length" j⟩
  of_to i := by simp
  not_null _ := Json.noConfusion

instance : Document FrozenControl where
  toJson c := .obj [
    ("id", toJson c.id), ("injection_cycles", optionJson c.injectionCycles),
    ("expected_rejected_total", optionJson c.expectedRejectedTotal),
    ("expected_rejected_by_reason", optionJson c.expectedRejectedByReason),
    ("expected_accepted", optionJson c.expectedAccepted),
    ("control_thread_policy", optionJson c.controlThreadPolicy),
    ("hog_thread_policy", optionJson c.hogThreadPolicy),
    ("freeze_at_cycle", optionJson c.freezeAtCycle),
    ("max_reaction_time_us", optionJson c.maxReactionTimeUs)]
  ofJson j := do
    return {
      id := ← required "id" j
      injectionCycles := ← optional "injection_cycles" j
      expectedRejectedTotal := ← optional "expected_rejected_total" j
      expectedRejectedByReason := ← optional "expected_rejected_by_reason" j
      expectedAccepted := ← optional "expected_accepted" j
      controlThreadPolicy := ← optional "control_thread_policy" j
      hogThreadPolicy := ← optional "hog_thread_policy" j
      freezeAtCycle := ← optional "freeze_at_cycle" j
      maxReactionTimeUs := ← optional "max_reaction_time_us" j }
  of_to c := by simp
  not_null _ := Json.noConfusion

instance : Document FrozenManifest where
  toJson m := .obj [
    ("loop", toJson m.loop), ("watchdog", toJson m.watchdog),
    ("positive_gate", toJson m.positiveGate),
    ("negative_controls", toJson m.negativeControls)]
  ofJson j := do
    return ⟨← required "loop" j, ← required "watchdog" j, ← required "positive_gate" j,
      ← required "negative_controls" j⟩
  of_to m := by simp
  not_null _ := Json.noConfusion

end Report

namespace Cli

open Report Document Fallible

/-! ## Texts -/

/-- `serde_json::to_string_pretty`. -/
def printed {α : Type} [Document α] (a : α) : String := String.ofList ((toJson a).pretty 0)

/-- `serde_json::from_str`. -/
def fromText {α : Type} [Document α] (text : String) : Except String α := do
  let (j, rest) ← okOr (Json.parse text.toList) "expected value"
  if Json.skip rest = [] then okOr (ofJson j) "missing field" else .error "trailing characters"

/-- The report whose text this is, with at most a line break behind it. -/
def fromPrinted (text : String) : Except String RunReport := do
  let r ← fromText text
  if text = printed r ∨ text = printed r ++ "\n" then return r else .error "expected value"

/-- Files with these texts, under the names that the paths are. Of the texts that read as a run
report, those that are not laid out as they are printed are refused. -/
def Crates.reference : Crates where
  readManifest := fromText
  readRun := fromPrinted
  runText r := .ok (printed r)
  completionText e := .ok (printed e)
  sha256 := Sha256.digest
  resolve path := path

/-- The text of an object begins no text of another. -/
theorem to_json_eq_of_begins {α β : Type} [Document α] [Document β] {a : α} {b : β}
    {fields fields' : List (String × Json)} (ha : toJson a = .obj fields)
    (hb : toJson b = .obj fields') {text : String} (htext : (printed a).toList <+: text.toList)
    (hbegin : text.toList <+: (printed b ++ "\n").toList) : toJson a = toJson b := by
  obtain ⟨more, hmore⟩ := htext.trans hbegin
  simp only [printed, String.toList_append, String.toList_ofList] at hmore
  have hparse := congrArg Json.parse hmore
  rw [ha, hb, Json.parse_object, Json.parse_object] at hparse
  rw [ha, hb, (Prod.mk.inj (Option.some.inj hparse)).1]

theorem from_text_printed {α : Type} [Document α] {a : α} {fields : List (String × Json)}
    (ha : toJson a = .obj fields) {rest : String} (hrest : Json.skip rest.toList = []) :
    fromText (printed a ++ rest) = .ok a := by
  have hparse : Json.parse (printed a ++ rest).toList = some (toJson a, rest.toList) := by
    rw [String.toList_append, printed, String.toList_ofList, ha, Json.parse_object]
  refine bind_ok_iff.mpr ⟨_, by rw [hparse]; rfl, ?_⟩
  simp [okOr, hrest]

theorem from_printed_eq_ok {text : String} {r : RunReport} (h : fromPrinted text = .ok r) :
    (printed r).toList <+: text.toList := by
  simp only [fromPrinted, bind_ok_iff] at h
  obtain ⟨r', -, h⟩ := h
  split at h
  · rename_i htext
    obtain rfl := pure_ok_iff.mp h
    obtain rfl | rfl := htext
    · exact List.prefix_refl _
    · rw [String.toList_append]
      exact List.prefix_append ..
  · cases h

/-- These texts are read as they are printed. -/
theorem reference_documents : Crates.reference.Documents where
  run r text htext := by
    obtain rfl := Except.ok.inj htext
    refine bind_ok_iff.mpr ⟨r, from_text_printed rfl rfl, ?_⟩
    rw [if_pos (.inr rfl)]
    rfl
  cut r text htext begun hbegin r' hread := by
    obtain rfl := Except.ok.inj htext
    have hsame := to_json_eq_of_begins (a := r') (b := r) rfl rfl (from_printed_eq_ok hread) hbegin
    have hread := congrArg (ofJson (α := RunReport)) hsame
    simpa only [of_to, Option.some.injEq] using hread
  completion e text htext begun hbegin r hread := by
    obtain rfl := Except.ok.inj htext
    have hsame := to_json_eq_of_begins (a := r) (b := e) rfl rfl (from_printed_eq_ok hread) hbegin
    -- the first field of a run report is no field of the evidence
    have hfields := Json.obj.inj hsame
    have hname := (Prod.mk.inj (List.cons.inj hfields).1).1
    exact absurd hname (by decide)

theorem reference_prints : Crates.reference.Prints := ⟨fun _ => ⟨_, rfl⟩, fun _ => ⟨_, rfl⟩⟩

/-! ## A disk with the manifest -/

/-- A manifest is loaded from the file that holds it. -/
theorem reference_load {d : Disk} {path : String} {m : FrozenManifest}
    (h : d.file path = .ok (Utf8.encode (printed m))) :
    load Crates.reference d path = .ok m := by
  have htext : fromText (printed m) = .ok m := by
    have hread : fromText (printed m ++ "") = .ok m := from_text_printed rfl rfl
    rwa [String.append_empty] at hread
  refine bind_ok_iff.mpr ⟨printed m, ?_, ?_⟩
  · show Except.mapError _ (Except.bind (d.file path) _) = _
    rw [h]
    simp [Except.bind, okOr, Except.mapError]
  · show Except.mapError _ (fromText (printed m)) = _
    rw [htext]
    rfl

/-- A disk with the frozen manifest alone. -/
def Disk.initial : Disk where
  file name :=
    if name = defaultPath then .ok (Utf8.encode (printed frozenManifest))
    else .error "No such file or directory (os error 2)"

theorem initial_file :
    Disk.initial.file defaultPath = .ok (Utf8.encode (printed frozenManifest)) := by
  simp only [Disk.initial, if_true]

end Cli

end Fieldbus
