import Fieldbus.Core.Node

/-!
# Rejected frames do not interfere

`ControlNode.purge` deletes from a step's frames those its validator rejects. A run and its purged
run stay in lockstep: the nodes differ at most in the rejection counters (`PurgedNode`), which
nothing but the report reads. `rejected_frames_do_not_interfere` is the statement about outputs.
-/

namespace Fieldbus

open J1939

namespace J1939.Validator

variable {v w : Validator}

/-- The validator `w` of the purged run: the same acceptances, no rejections. -/
structure PurgedValidator (v w : Validator) : Prop where
  lastSeq : w.lastSeq = v.lastSeq
  accepted : w.accepted = v.accepted
  rejected : w.rejected = 0
  byReason : w.byReason = .replicate 8 0

theorem PurgedValidator.accept (h : PurgedValidator v w) (p : Payload) :
    PurgedValidator (v.accept p) (w.accept p) :=
  ⟨rfl, by simp [h.accepted], h.rejected, h.byReason⟩

theorem PurgedValidator.refuse (h : PurgedValidator v w) (r : Reject) :
    PurgedValidator (v.refuse r) w :=
  ⟨h.lastSeq, h.accepted, h.rejected, h.byReason⟩

theorem PurgedValidator.resetSequence (h : PurgedValidator v w) :
    PurgedValidator v.resetSequence w.resetSequence :=
  ⟨rfl, h.accepted, h.rejected, h.byReason⟩

/-- The purged validator reads the accepted frames with the same verdicts. -/
theorem PurgedValidator.frames (h : PurgedValidator v w) (frames : List Frame) :
    PurgedValidator (v.validateAll frames) (w.validateAll (v.acceptedFrames frames)) ∧
      Machine.trace validate w (v.acceptedFrames frames) =
        (Machine.trace validate v frames).filter Except.isOk := by
  induction frames generalizing v w with
  | nil => exact ⟨h, rfl⟩
  | cons frame rest ih =>
      rcases validate_cases v frame with ⟨p, hok, hvalidate⟩ | ⟨r, herror, hvalidate⟩
      -- both validators are at the same position, so they give the same verdict
      · have hok' : w.classify frame = .ok p := (classify_congr h.lastSeq frame).trans hok
        obtain ⟨hfinal, htrace⟩ := ih (h.accept p)
        rw [accepted_frames_ok hok, validate_all_ok hok, validate_all_ok hok']
        refine ⟨hfinal, ?_⟩
        rw [Machine.trace_cons, Machine.trace_cons, validate_ok hok', hvalidate,
          List.filter_cons_of_pos rfl, htrace]
      -- the purged run does not see this frame; only the counters of `v` have moved
      · obtain ⟨hfinal, htrace⟩ := ih (h.refuse r)
        rw [accepted_frames_error herror, validate_all_error herror]
        refine ⟨hfinal, ?_⟩
        rw [Machine.trace_cons, hvalidate, List.filter_cons_of_neg Bool.false_ne_true, htrace]

/-- The purged validator accepts the same payloads. -/
theorem PurgedValidator.payloads (h : PurgedValidator v w) (frames : List Frame) :
    w.acceptedPayloads (v.acceptedFrames frames) = v.acceptedPayloads frames := by
  rw [acceptedPayloads, (h.frames frames).2, acceptedPayloads, List.filterMap_filter]
  congr 1
  funext verdict
  cases verdict <;> rfl

end J1939.Validator

variable {F : Type} [Scalar F]

namespace ControlNode

/-- Delete from a step's frames exactly those the node's validator rejects. -/
def purge (n : ControlNode F) : Input → Input
  | .step nowUs received => .step nowUs (n.validator.acceptedFrames received)
  | .reset nowUs => .reset nowUs

/-- The validator's verdicts on the frames of an input, in order. -/
def verdicts (n : ControlNode F) : Input → List (Except Reject Payload)
  | .step _ received => Machine.trace Validator.validate n.validator received
  | .reset _ => []

/-- One input, reporting its output and its verdicts. -/
def observe (n : ControlNode F) (input : Input) :
    ControlNode F × (Option (StepOutput F) × List (Except Reject Payload)) :=
  ((n.stepInput input).1, (n.stepInput input).2, n.verdicts input)

/-- The node `m` of the purged run differs from `n` at most in the rejection counters. -/
structure PurgedNode (n m : ControlNode F) : Prop where
  validator : Validator.PurgedValidator n.validator m.validator
  rest : m = { n with validator := m.validator }

/-- What the purged run reports for an input: the same output without rejections, and the
acceptances among the verdicts. -/
structure PurgedReport (a b : Option (StepOutput F) × List (Except Reject Payload)) : Prop where
  output : b.1 = a.1.map fun out => { out with rejected := 0 }
  verdicts : b.2 = a.2.filter Except.isOk

variable {n m : ControlNode F}

/-- The receive loop on the purged frames leaves the same watchdog and the same fresh value. -/
theorem PurgedNode.reception (h : PurgedNode n m) (nowUs : UInt64) (received : List Frame) :
    (m.reception nowUs (n.validator.acceptedFrames received)).watchdog =
        (n.reception nowUs received).watchdog ∧
      (m.reception nowUs (n.validator.acceptedFrames received)).fresh =
        (n.reception nowUs received).fresh := by
  have hwatchdog : m.watchdog = n.watchdog := by rw [h.rest]
  rw [reception_watchdog, reception_watchdog, reception_fresh, reception_fresh,
    h.validator.payloads, hwatchdog]
  exact ⟨rfl, rfl⟩

/-- One step on the purged frames. -/
theorem PurgedNode.step (h : PurgedNode n m) (nowUs : UInt64) (received : List Frame) :
    PurgedNode (n.step nowUs received).1
        (m.step nowUs (n.validator.acceptedFrames received)).1 ∧
      (m.step nowUs (n.validator.acceptedFrames received)).2 =
        { (n.step nowUs received).2 with rejected := 0 } := by
  obtain ⟨hwatchdog, hfresh⟩ := h.reception nowUs received
  obtain ⟨hvalidator, -⟩ := h.validator.frames received
  have hfilter : m.filter = n.filter := by rw [h.rest]
  have hpi : m.pi = n.pi := by rw [h.rest]
  have hseq : m.txSeq = n.txSeq := by rw [h.rest]
  have hsetpoint : m.setpoint = n.setpoint := by rw [h.rest]
  refine ⟨⟨by simpa [ControlNode.step] using hvalidator, ?_⟩, ?_⟩
  · simp only [ControlNode.step, hwatchdog, hfresh, hfilter, hpi, hseq, hsetpoint]
  · simp only [ControlNode.step, hwatchdog, hfresh, hfilter, hpi, hseq, hsetpoint,
      reception_validator, hvalidator.accepted, hvalidator.rejected]

/-- One input of the purged run. -/
theorem PurgedNode.observe (h : PurgedNode n m) (input : Input) :
    PurgedNode (n.observe input).1 (m.observe (n.purge input)).1 ∧
      PurgedReport (n.observe input).2 (m.observe (n.purge input)).2 := by
  cases input with
  | step nowUs received =>
      obtain ⟨hnode, hout⟩ := h.step nowUs received
      exact ⟨hnode, congrArg some hout, (h.validator.frames received).2⟩
  | reset nowUs =>
      refine ⟨⟨h.validator.resetSequence, ?_⟩, rfl, rfl⟩
      show m.reset nowUs = { n.reset nowUs with validator := (m.reset nowUs).validator }
      rw [h.rest]
      rfl

/-- Deleting the rejected frames from every step of a run, with any resets in between, changes no
output but the rejection counter, which stays zero, and leaves verdicts that are the acceptances
of the original run and nothing else. -/
theorem rejected_frames_do_not_interfere (startUs timeoutUs : UInt64) (inputs : List Input) :
    let n : ControlNode F := withWatchdogTimeout startUs timeoutUs
    let reports := Machine.trace observe n inputs
    let purged := Machine.trace observe n (Machine.translate observe purge n inputs)
    List.Forall₂ PurgedReport reports purged ∧
      ∀ report ∈ purged, ∀ verdict ∈ report.2, verdict.isOk = true := by
  intro n reports purged
  have hnode : PurgedNode n n := ⟨⟨rfl, rfl, rfl, rfl⟩, rfl⟩
  have hstep : ∀ (left right : ControlNode F) (input : Input), PurgedNode left right →
      PurgedNode (left.observe input).1 (right.observe (left.purge input)).1 ∧
        PurgedReport (left.observe input).2 (right.observe (left.purge input)).2 :=
    fun _ _ input h => h.observe input
  have hreports : List.Forall₂ PurgedReport reports purged :=
    Machine.trace_simulation hstep hnode inputs
  refine ⟨hreports, fun report hreport verdict hverdict => ?_⟩
  obtain ⟨index, hindex, rfl⟩ := List.getElem_of_mem hreport
  have hpurged := hreports.get (by rw [hreports.length_eq]; exact hindex) hindex
  rw [List.get_eq_getElem, List.get_eq_getElem] at hpurged
  rw [hpurged.verdicts] at hverdict
  exact (List.mem_filter.mp hverdict).2

end ControlNode

end Fieldbus
