import Fieldbus.Library.LineCodec
import Fieldbus.Library.Machine
import Fieldbus.Library.Utf8
import Fieldbus.Host.CommandLine
import Fieldbus.Host.Evidence

/-!
# The program

After `host/src/main.rs`: the subcommands, from the arguments and the files to the result file and
the exit state. `conduct` is what a run computes before it writes anything, `assemble` what a report
does; both are followed by `writeJson`. The texts printed on the way are left out.

The parsers and printers of the JSON files, SHA-256 and the file that a path names are parameters
(`Crates`).
-/

namespace Fieldbus.Cli

open Report LineCodec

/-! ## Files -/

/-- What reading each file gives: its bytes, or what the operating system says. -/
structure Disk where
  file : String → Except String (List UInt8)

/-- A file is replaced. -/
def Disk.put (d : Disk) (name : String) (bytes : List UInt8) : Disk where
  file := Function.update d.file name (.ok bytes)

/-- `serde_json`, `sha2`, and the file that a path names. -/
structure Crates where
  readManifest : String → Except String FrozenManifest
  readRun : String → Except String RunReport
  runText : RunReport → Except String String
  completionText : CompletionReport → Except String String
  sha256 : List UInt8 → List UInt8
  resolve : String → String

/-- What `serde_json` does with the texts it has printed: the text of a run report reads as that
report, and so does no beginning of it as another one; no beginning of the text of an evidence file
reads as a run report, which has fields that it lacks. -/
structure Crates.Documents (c : Crates) : Prop where
  run : ∀ r text, c.runText r = .ok text → c.readRun (text ++ "\n") = .ok r
  cut : ∀ r text, c.runText r = .ok text →
    ∀ begun : String, begun.toList <+: (text ++ "\n").toList →
    ∀ r', c.readRun begun = .ok r' → r' = r
  completion : ∀ e text, c.completionText e = .ok text →
    ∀ begun : String, begun.toList <+: (text ++ "\n").toList → ∀ r, c.readRun begun ≠ .ok r

/-- `serde_json::to_string_pretty` on the types of the result files, which have no map whose keys
are not strings. -/
structure Crates.Prints (c : Crates) : Prop where
  run : ∀ r, ∃ text, c.runText r = .ok text
  completion : ∀ e, ∃ text, c.completionText e = .ok text

/-- What becomes of the attempt to write a file: what creating its directory says, what writing
says, and after a failure how many bytes have replaced the file, if it was opened. -/
structure WriteAttempt where
  createDir : Except String Unit
  write : Except (String × Option Nat) Unit

/-- `Option::ok_or`. -/
def okOr {α : Type} (value : Option α) (message : String) : Except String α :=
  match value with
  | some a => .ok a
  | none => .error message

variable (c : Crates)

/-- `fs::read`. -/
def read (d : Disk) (path : String) : Except String (List UInt8) := d.file (c.resolve path)

/-- `fs::read_to_string`. -/
def readToString (d : Disk) (path : String) : Except String String := do
  okOr (Utf8.decode (← read c d path)) "stream did not contain valid UTF-8"

/-- `Manifest::load`. -/
def load (d : Disk) (path : String) : Except String FrozenManifest := do
  let raw ← (readToString c d path).mapError fun e => s!"cannot read manifest {path}: {e}"
  (c.readManifest raw).mapError fun e => s!"cannot parse manifest {path}: {e}"

/-- `ManifestRef::of`. -/
def manifestRef (d : Disk) (path : String) : Except String ManifestRef := do
  let bytes ← (read c d path).mapError fun e => s!"cannot read {path}: {e}"
  return ⟨path, String.ofList ((c.sha256 bytes).flatMap fun byte => hexPair byte.toNat)⟩

def readRun (d : Disk) (path : String) : Except String RunReport := do
  let raw ← (readToString c d path).mapError fun e => s!"cannot read run report {path}: {e}"
  (c.readRun raw).mapError fun e => s!"cannot parse run report {path}: {e}"

/-- A path read backwards, without the separators and the current directories at its end. -/
def trimPath : List Char → List Char
  | [] => []
  | ch :: rest =>
      if ch = '/' then if rest = [] then [ch] else trimPath rest
      else if ch = '.' ∧ rest.head? = some '/' then trimPath rest
      else ch :: rest

/-- `Path::parent`. -/
def parent (path : String) : Option String :=
  let trimmed := trimPath path.toList.reverse
  if trimmed = [] ∨ trimmed = ['/'] then none
  else some (String.ofList (trimPath (trimmed.dropWhile fun ch => ch ≠ '/')).reverse)

/-- Create the directory of a file, if the path has one. -/
def createParent (w : WriteAttempt) (path : String) : Except String Unit :=
  match parent path with
  | some dir =>
      if dir = "" then .ok () else w.createDir.mapError fun e => s!"cannot create {dir}: {e}"
  | none => .ok ()

/-- Write what a serialiser returned. -/
def writeJson (w : WriteAttempt) (d : Disk) (path : String) (text : Except String String) :
    Disk × Except String Unit :=
  match createParent w path, text with
  | .error e, _ => (d, .error e)
  | .ok (), .error e => (d, .error s!"cannot serialise result: {e}")
  | .ok (), .ok text =>
      let bytes := Utf8.encode (text ++ "\n")
      match w.write with
      | .ok () => (d.put (c.resolve path) bytes, .ok ())
      | .error (e, some kept) =>
          (d.put (c.resolve path) (bytes.take kept), .error s!"cannot write {path}: {e}")
      | .error (e, none) => (d, .error s!"cannot write {path}: {e}")

/-! ## `run` and `control` -/

/-- The three named controls. -/
inductive Control where
  | cpuHog
  | canCorrupt
  | sensorFreeze
  deriving DecidableEq, Repr

def Control.id : Control → String
  | .cpuHog => "cpu-hog"
  | .canCorrupt => "can-corrupt"
  | .sensorFreeze => "sensor-freeze"

/-- The control with the given name. -/
def Control.named (which : String) : Except String Control :=
  if which = "cpu-hog" then .ok .cpuHog
  else if which = "can-corrupt" then .ok .canCorrupt
  else if which = "sensor-freeze" then .ok .sensorFreeze
  else .error ("unknown control " ++ debugText which ++ "\n\n" ++ usage)

/-- What a run injects, what it contends with, and the policy of its control thread. -/
structure Mechanism where
  faults : FaultSchedule
  contention : Option Contention
  controlThreadPolicy : ThreadPolicy

/-- The mechanism of a run, read from the frozen manifest. -/
def mechanism (s : Surroundings) (manifest : FrozenManifest) (cycles : UInt64) :
    Option Control → Except String Mechanism
  | none => .ok ⟨.clean, none, .timeConstraint⟩
  | some .cpuHog => do
      let spec ← manifest.control "cpu-hog"
      let policy ← ThreadPolicy.fromManifest (← okOr spec.controlThreadPolicy
        "manifest cpu-hog control has no control_thread_policy")
      let hogPolicy ← ThreadPolicy.fromManifest (← okOr spec.hogThreadPolicy
        "manifest cpu-hog control has no hog_thread_policy")
      -- the middle 40 percent
      return ⟨.clean, some ⟨⟨cycles * 3 / 10, cycles * 7 / 10⟩, 2 * s.logicalCores, hogPolicy⟩,
        policy⟩
  | some .canCorrupt => do
      let spec ← manifest.control "can-corrupt"
      let c ← okOr spec.injectionCycles "manifest can-corrupt control has no injection_cycles"
      return ⟨c.schedule, none, .timeConstraint⟩
  | some .sensorFreeze => do
      let spec ← manifest.control "sensor-freeze"
      let cycle ← okOr spec.freezeAtCycle "manifest sensor-freeze control has no freeze_at_cycle"
      return ⟨{ FaultSchedule.clean with freezeAt := some cycle }, none, .timeConstraint⟩

variable {F : Type} [Scalar F]

/-- The report with the verdict of the control, if it is one, and the answer of the exit state: a
control's verdict is whether it was caught, a positive run's whether the gate passed. -/
def judge (manifest : FrozenManifest) (result : RunResult F) (report : RunReport) :
    Option Control → Except String (RunReport × Bool)
  | none => .ok (report, report.gate.pass)
  | some .cpuHog =>
      let verdict := evaluateCpuHog report.gate result.hog
      .ok ({ report with control := some verdict }, verdict.caught)
  | some .canCorrupt => do
      let spec ← manifest.control "can-corrupt"
      let verdict := evaluateCanCorrupt report.gate result.outcome spec.toNegativeControl
      return ({ report with control := some verdict }, verdict.caught)
  | some .sensorFreeze => do
      let spec ← manifest.control "sensor-freeze"
      let verdict := evaluateSensorFreeze report.gate result.outcome spec.toNegativeControl
      return ({ report with control := some verdict }, verdict.caught)

/-- What a run is told to do, with what the manifest says where nothing else is given. -/
structure Plan where
  out : String
  runId : String
  seed : UInt64
  cfg : RunConfig
  mechanism : Mechanism
  manifest : FrozenManifest
  manifestRef : ManifestRef

/-- The part of `cmd_run` before the run. -/
def plan (s : Surroundings) (d : Disk) (args : List String) (control : Option Control) :
    Except String Plan := do
  let o ← parseOpts args
  let out ← okOr o.out "--out is required: a run that writes no result is not evidence"
  let manifest ← load c d o.manifest
  let manifestRef ← manifestRef c d o.manifest
  let cycles := o.cycles.getD manifest.loop.cycles
  let mechanism ← mechanism s manifest cycles control
  return {
    out := out
    runId := o.runId.getD ((control.map Control.id).getD "positive")
    seed := o.seed.getD manifest.loop.seed
    cfg :=
      { cycles := cycles
        periodUs := o.periodUs.getD manifest.loop.targetPeriodUs
        watchdogTimeoutUs := manifest.watchdog.timeoutUs
        mode := o.mode }
    mechanism := mechanism
    manifest := manifest
    manifestRef := manifestRef }

variable (F)

/-- The run of a plan. -/
def Plan.result (p : Plan) (s : Surroundings) : RunResult F :=
  execute s (SimBus.new p.seed p.mechanism.faults : SimBus F) p.cfg
    p.mechanism.controlThreadPolicy p.mechanism.contention

/-- The report of a plan's run, and its verdict. -/
def Plan.report (p : Plan) (s : Surroundings) (control : Option Control) :
    Except String (RunReport × Bool) :=
  let result := p.result F s
  judge p.manifest result (buildRunReport s p.runId result p.cfg.mode p.cfg.periodUs p.manifest
    p.manifestRef) control

/-- What a run has found out before it writes anything. -/
structure Conduct where
  out : String
  report : RunReport
  verdict : Bool

/-- `cmd_run`, up to the result file. -/
def conduct (s : Surroundings) (d : Disk) (args : List String) (control : Option Control) :
    Except String Conduct := do
  let p ← plan c s d args control
  let (report, verdict) ← p.report F s control
  return ⟨p.out, report, verdict⟩

def cmdRun (s : Surroundings) (w : WriteAttempt) (d : Disk) (args : List String)
    (control : Option Control) : Disk × Except String Bool :=
  match conduct c F s d args control with
  | .error e => (d, .error e)
  | .ok k =>
      let (d, written) := writeJson c w d k.out (c.runText k.report)
      (d, written.map fun _ => k.verdict)

/-! ## `report` -/

/-- Whether the control that a report is about was caught. -/
def wasCaught (r : RunReport) : Bool := (r.control.map ControlReport.caught).getD false

/-- The evidence of the given runs; `first` is the first positive one. -/
def completion (first : RunReport) (positiveRuns negativeControls : List RunReport) :
    CompletionReport :=
  let positiveRunsPassed := positiveRuns.countP fun r => r.gate.pass
  let controlsCaught := negativeControls.countP wasCaught
  { what := "Machine-readable evidence for the timing, framing and watchdog claims in this " ++
      "repository. Produced by scripts/run_completion_gate.sh from a committed tree. Every " ++
      "number here comes from a simulated in-process CAN bus and a simulated sensor on one " ++
      "Apple Silicon Mac. No CAN hardware, no microcontroller execution, no hardware in the " ++
      "loop, no RTOS."
    manifest := first.manifest
    environment := first.environment
    targetPeriodUs := first.targetPeriodUs
    cycles := first.cycles
    positiveRuns := positiveRuns
    negativeControls := negativeControls
    summary :=
      { positiveRunsPassed := positiveRunsPassed
        positiveRunsTotal := positiveRuns.length
        controlsCaught := controlsCaught
        controlsTotal := negativeControls.length
        overallPass := positiveRunsPassed == positiveRuns.length &&
          controlsCaught == negativeControls.length }
    limitations := limitations }

/-- `cmd_report`, up to the evidence file. -/
def assemble (d : Disk) (args : List String) : Except String (String × CompletionReport) := do
  let o ← parseReport args
  let out ← okOr o.out "report needs --out"
  if o.positives = [] ∨ o.controls = [] then
    .error "report needs at least one --positive and one --control"
  else
    let positiveRuns ← o.positives.mapM (readRun c d)
    let negativeControls ← o.controls.mapM (readRun c d)
    let first ← okOr positiveRuns.head? "report needs at least one positive run"
    return (out, completion first positiveRuns negativeControls)

def cmdReport (w : WriteAttempt) (d : Disk) (args : List String) : Disk × Except String Bool :=
  match assemble c d args with
  | .error e => (d, .error e)
  | .ok (out, evidence) =>
      let (d, written) := writeJson c w d out (c.completionText evidence)
      (d, written.map fun _ => evidence.summary.overallPass)

/-! ## The subcommands -/

/-- What the first arguments ask for, with the arguments left to it. -/
inductive Command where
  | run (control : Option Control) (args : List String)
  | report (args : List String)
  | help

def command : List String → Except String Command
  | [] => .ok .help
  | "run" :: rest => .ok (.run none rest)
  | ["control"] => .error ("control needs a name\n\n" ++ usage)
  | "control" :: which :: rest => (Control.named which).map fun control => .run (some control) rest
  | "report" :: rest => .ok (.report rest)
  | "--help" :: _ | "-h" :: _ => .ok .help
  | other :: _ => .error ("unknown subcommand " ++ debugText other ++ "\n\n" ++ usage)

/-- `Ok(true)` on a pass, `Ok(false)` on a gate failure, `Err` on misuse. -/
def dispatch (s : Surroundings) (w : WriteAttempt) (d : Disk) (args : List String) :
    Disk × Except String Bool :=
  match command args with
  | .ok (.run control rest) => cmdRun c F s w d rest control
  | .ok (.report rest) => cmdReport c w d rest
  | .ok .help => (d, .ok true)
  | .error e => (d, .error e)

/-- The exit status of the process. -/
def exitCode : Except String Bool → UInt8
  | .ok true => 0
  | .ok false => 1
  | .error _ => 2

/-- One run of the program. -/
structure Invocation where
  surroundings : Surroundings
  attempt : WriteAttempt
  args : List String

def Invocation.run (d : Disk) (i : Invocation) : Disk × Except String Bool :=
  dispatch c F i.surroundings i.attempt d i.args

end Fieldbus.Cli
