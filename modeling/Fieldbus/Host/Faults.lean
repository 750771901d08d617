import Mathlib.Data.List.Forall2
import Fieldbus.Host.Bus

/-!
# What the validator makes of a fault schedule

Every frame the simulator injects is refused, for the one reason its set stands for, by a validator
that has just accepted the legitimate frame of the cycle (`injected_refused`). Refusals move nothing
but counters, so the frames of a cycle amount to one acceptance (`emission_verdicts`).
-/

namespace Fieldbus

open J1939

namespace J1939.Validator

variable {v : Validator} {reasons : List Reject}

/-- A validator refuses the frames one by one for the given reasons. -/
def Refuses (v : Validator) (frames : List Frame) (reasons : List Reject) : Prop :=
  List.Forall₂ (fun frame r => v.classify frame = .error r) frames reasons

/-- The validator after the given refusals. -/
def refuseAll (v : Validator) (reasons : List Reject) : Validator :=
  reasons.foldl refuse v

@[simp] theorem refuse_all_last_seq : (v.refuseAll reasons).lastSeq = v.lastSeq := by
  induction reasons generalizing v with
  | nil => rfl
  | cons r rest ih => exact ih

@[simp] theorem refuse_all_accepted : (v.refuseAll reasons).accepted = v.accepted := by
  induction reasons generalizing v with
  | nil => rfl
  | cons r rest ih => exact ih

/-- Each reason's counter counts its refusals. -/
theorem refuse_all_by_reason (i : Fin 8) :
    (v.refuseAll reasons).byReason[i] =
      v.byReason[i] + UInt32.ofNat (reasons.countP fun r => r.index = i) := by
  induction reasons generalizing v with
  | nil => simp [refuseAll]
  | cons r rest ih =>
      have hone : (v.refuse r).byReason[i] = v.byReason[i] + if r.index = i then 1 else 0 :=
        refuse_by_reason v r i
      show ((v.refuse r).refuseAll rest).byReason[i] = _
      rw [ih, hone, List.countP_cons, UInt32.ofNat_add, UInt32.add_assoc]
      congr 1
      rw [UInt32.add_comm]
      by_cases h : r.index = i <;> simp [h]

/-- Refusing a frame that is there only under a condition. -/
theorem Refuses.ite {frame : Frame} {r : Reject} (h : v.classify frame = .error r) (c : Prop)
    [Decidable c] : Refuses v (if c then [frame] else []) (if c then [r] else []) := by
  split
  · exact .cons h .nil
  · exact .nil

/-- Refusing one list of frames after another. -/
theorem Refuses.append {first second : List Frame} {reasons' : List Reject}
    (h : Refuses v first reasons) (h' : Refuses v second reasons') :
    Refuses v (first ++ second) (reasons ++ reasons') :=
  List.rel_append h h'

/-- A refusal leaves the later verdicts alone. -/
theorem Refuses.refuse {frames : List Frame} (h : Refuses v frames reasons) (r : Reject) :
    Refuses (v.refuse r) frames reasons :=
  h.imp fun frame _ hclassify => (classify_congr rfl frame).trans hclassify

/-- Frames refused one by one are refused as a list: nothing is accepted and only counters move. -/
theorem Refuses.verdicts {frames : List Frame} (h : Refuses v frames reasons) :
    v.validateAll frames = v.refuseAll reasons ∧ v.acceptedFrames frames = [] ∧
      Machine.trace validate v frames = reasons.map .error := by
  induction frames generalizing v reasons with
  | nil =>
      obtain rfl := List.forall₂_nil_left_iff.mp h
      exact ⟨rfl, rfl, rfl⟩
  | cons frame rest ih =>
      obtain ⟨r, reasons, herror, hrest, rfl⟩ := List.forall₂_cons_left_iff.mp h
      obtain ⟨hfinal, haccepted, htrace⟩ := ih (Refuses.refuse hrest r)
      rw [validate_all_error herror, accepted_frames_error herror, Machine.trace_cons,
        validate_error herror]
      exact ⟨hfinal, haccepted, congrArg _ htrace⟩

end J1939.Validator

namespace FaultSchedule

variable (faults : FaultSchedule) (cycle : UInt64) (seqNow : UInt8) (value : Int16)

/-- The reasons for which the frames injected in a cycle are refused, in order. -/
def reasons : List Reject :=
  (if cycle ∈ faults.badCrc then [.badCrc] else []) ++
  (if cycle ∈ faults.duplicate then [.duplicate] else []) ++
  (if cycle ∈ faults.outOfOrder then [.outOfOrder (seqNow + 1) (seqNow + 5)] else []) ++
  (if cycle ∈ faults.outOfRange then [.outOfRange] else []) ++
  (if cycle ∈ faults.badLength then [.badLength] else [])

/-- The cycles listed for a reason. -/
def listed (faults : FaultSchedule) : Reject → Finset UInt64
  | .badCrc => faults.badCrc
  | .duplicate => faults.duplicate
  | .outOfOrder .. => faults.outOfOrder
  | .outOfRange => faults.outOfRange
  | .badLength => faults.badLength
  | .unknownPgn | .unexpectedSource | .badReserved => ∅

/-- Counting in a list that has its one element only under a condition. -/
theorem countP_ite (c : Prop) [Decidable c] (p : Reject → Bool) (r : Reject) :
    (if c then [r] else []).countP p = if p r then (if c then 1 else 0) else 0 := by
  by_cases hc : c <;> cases hp : p r <;> simp [hc, hp]

/-- In one cycle a reason occurs once if the cycle is listed for it, and not otherwise. -/
theorem reasons_count (r : Reject) :
    (faults.reasons cycle seqNow).countP (fun r' => r'.index = r.index) =
      if cycle ∈ faults.listed r then 1 else 0 := by
  cases r <;> simp [reasons, listed, List.countP_append, countP_ite, Reject.index] <;> rfl

variable {seqNow value}

/-- A validator that accepted `seqNow` refuses every injected frame for its own reason. -/
theorem injected_refused {w : Validator} (hw : w.lastSeq = some seqNow) :
    w.Refuses (faults.injected cycle (sensorFrame seqNow value statusOk) seqNow value)
      (faults.reasons cycle seqNow) := by
  have hlayout := sensor_frame_layout seqNow value statusOk
  have hcrc := Validator.classify_layout_error (v := w) (inverted_crc_layout hlayout)
  have hduplicate : w.classify (sensorFrame seqNow value statusOk) = .error .duplicate :=
    Validator.classify_sequence_error hlayout (by simp [hw, checkSequence])
  have horder : w.classify (sensorFrame (seqNow + 5) value statusOk) =
      .error (.outOfOrder (seqNow + 1) (seqNow + 5)) :=
    Validator.classify_sequence_error (sensor_frame_layout _ _ _) (by simp [hw, checkSequence])
  have hrange : w.classify (sensorFrame (seqNow + 1) (valueMax + 1) statusOk) =
      .error .outOfRange :=
    Validator.classify_range_error (sensor_frame_layout _ _ _) (by simp [hw, checkSequence]) rfl
  have hlength : w.classify { sensorFrame (seqNow + 1) value statusOk with dlc := 4 } =
      .error .badLength :=
    Validator.classify_layout_error (short_frame_layout (show (4 : UInt8) ≠ payloadLen by decide))
  exact ((((Validator.Refuses.ite hcrc _).append (.ite hduplicate _)).append
    (.ite horder _)).append (.ite hrange _)).append (.ite hlength _)

/-- The frames of a cycle that emits, read by a validator that expects the sensor's number and
range: the legitimate frame is accepted, every injected one refused for its own reason. -/
theorem emission_verdicts {v : Validator} (hseq : checkSequence v.lastSeq seqNow = .ok ())
    (hrange : checkRange value = .ok ()) :
    let good := sensorFrame seqNow value statusOk
    let frames := good :: faults.injected cycle good seqNow value
    v.validateAll frames =
        (v.accept ⟨seqNow, value, statusOk⟩).refuseAll (faults.reasons cycle seqNow) ∧
      v.acceptedFrames frames = [good] ∧
      Machine.trace Validator.validate v frames =
        .ok ⟨seqNow, value, statusOk⟩ :: (faults.reasons cycle seqNow).map .error := by
  intro good frames
  have hok : v.classify good = .ok ⟨seqNow, value, statusOk⟩ :=
    (Validator.classify_ok_iff _ _ _).mpr ⟨sensor_frame_layout _ _ _, hseq, hrange⟩
  have hrefused : (v.accept ⟨seqNow, value, statusOk⟩).Refuses
      (faults.injected cycle good seqNow value) (faults.reasons cycle seqNow) :=
    injected_refused faults cycle rfl
  obtain ⟨hfinal, haccepted, htrace⟩ := hrefused.verdicts
  rw [Validator.validate_all_ok hok, Validator.accepted_frames_ok hok, Machine.trace_cons,
    Validator.validate_ok hok]
  exact ⟨hfinal, congrArg _ haccepted, congrArg _ htrace⟩

end FaultSchedule

end Fieldbus
