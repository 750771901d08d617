import Fieldbus.Core.Latch
import Fieldbus.Core.Sequence

/-!
# After a gap

A validator that missed frames of its sender refuses the ones that follow, since none carries the
number it expects, until the sender's one-byte counter has gone around. `gap_refused_iff` says how
long that takes: the frames after a gap are all refused as out of order, and a node fed by them
trips whatever its budget, exactly as long as gap and continuation together are shorter than 256.
-/

namespace Fieldbus

open J1939

namespace J1939.Validator

/-- The frames are a sender's next ones, the first with the given number. -/
def Continues (next : UInt8) : List Frame → Prop
  | [] => True
  | frame :: rest => Sent frame next ∧ Continues (next + 1) rest

/-- The verdict is a refusal of a number that is neither repeated nor expected. -/
def IsOutOfOrder (verdict : Except Reject Payload) : Prop :=
  ∃ expected got, verdict = .error (.outOfOrder expected got)

variable {v : Validator} {frame : Frame} {last : UInt8}

/-- Numbers that a gap takes the sender ahead by: the last of them is the last accepted number
again. -/
theorem gap_number (last : UInt8) {lost : Nat} (hlost : 1 ≤ lost ∧ lost ≤ 255) :
    last + 1 + UInt8.ofNat lost ≠ last + 1 ∧
      (last + 1 + UInt8.ofNat lost = last ↔ lost = 255) := by
  have hsize : lost < UInt8.size := by
    show lost < 256
    omega
  have hnumber : (UInt8.ofNat lost).toNat = lost := UInt8.toNat_ofNat_of_lt' hsize
  rw [← UInt8.toNat_inj, Ne, ← UInt8.toNat_inj, UInt8.toNat_add, UInt8.toNat_add, hnumber,
    UInt8.toNat_one]
  have hbound := last.toNat_lt
  omega

/-- A frame after a gap is not accepted: it is out of order, or a duplicate when the gap is as long
as it can be. -/
theorem classify_after_gap (hlast : v.lastSeq = some last) {lost : Nat}
    (hlost : 1 ≤ lost ∧ lost ≤ 255) (hframe : Sent frame (last + 1 + UInt8.ofNat lost)) :
    ∃ r, v.classify frame = .error r ∧ (IsOutOfOrder (.error r) ↔ lost < 255) := by
  obtain ⟨p, hlayout, hseq, -⟩ := hframe
  obtain ⟨hnext, hsame⟩ := gap_number last hlost
  rw [← hseq] at hnext hsame
  by_cases hfull : lost = 255
  · refine ⟨.duplicate, classify_sequence_error hlayout ?_, ?_⟩
    · simp only [checkSequence, hlast]
      exact if_pos (hsame.mpr hfull)
    · simp [IsOutOfOrder, hfull]
  · refine ⟨.outOfOrder (last + 1) p.seq, classify_sequence_error hlayout ?_, ?_⟩
    · simp only [checkSequence, hlast]
      rw [if_neg (fun h => hfull (hsame.mp h)), if_pos hnext]
    · exact ⟨fun _ => by omega, fun _ => ⟨_, _, rfl⟩⟩

/-- The frames after a gap are all out of order as long as the sender's counter does not come around
to the last accepted number. -/
theorem out_of_order_after_gap (hlast : v.lastSeq = some last) {lost : Nat}
    (hlost : 1 ≤ lost ∧ lost ≤ 255) {frames : List Frame}
    (hframes : Continues (last + 1 + UInt8.ofNat lost) frames) :
    (∀ verdict ∈ Machine.trace validate v frames, IsOutOfOrder verdict) ↔
      lost + frames.length < 256 := by
  induction frames generalizing v lost with
  | nil => simp; omega
  | cons frame rest ih =>
      obtain ⟨hsent, hrest⟩ := hframes
      obtain ⟨r, herror, hkind⟩ := classify_after_gap hlast hlost hsent
      rw [Machine.trace_cons, validate_error herror, List.forall_mem_cons, hkind,
        List.length_cons]
      by_cases hfull : lost < 255
      · -- the gap now looks one frame longer to the validator, which stays where it was
        have hnext : Continues (last + 1 + UInt8.ofNat (lost + 1)) rest := by
          rwa [number_succ]
        have hlater := ih (v := v.refuse r) hlast (by omega) hnext
        rw [hlater]
        omega
      · constructor
        · exact fun h => absurd h.1 hfull
        · omega

/-- Frames that are all refused are not accepted. -/
theorem accepted_payloads_of_out_of_order {frames : List Frame}
    (h : ∀ verdict ∈ Machine.trace validate v frames, IsOutOfOrder verdict) :
    v.acceptedPayloads frames = [] := by
  rw [acceptedPayloads, List.filterMap_eq_nil_iff]
  intro verdict hverdict
  obtain ⟨expected, got, rfl⟩ := h verdict hverdict
  rfl

end J1939.Validator

variable {F : Type} [Scalar F]

namespace ControlNode

/-- A node that accepts nothing trips once a step comes later than its budget allows. -/
theorem starved_trips {n : ControlNode F} (hunlatched : n.safeState = none)
    {steps : List (UInt64 × List Frame)}
    (hsilent : n.validator.acceptedPayloads (steps.flatMap Prod.snd) = [])
    (hlate : ∃ i ∈ steps, n.watchdog.lastSeenUs.toNat + n.watchdog.timeoutUs.toNat < i.1.toNat) :
    (Machine.final (fun n i => ControlNode.step n i.1 i.2) n steps).safeState.isSome := by
  induction steps generalizing n with
  | nil => simp at hlate
  | cons first rest ih =>
      rw [List.flatMap_cons, Validator.accepted_payloads_append, List.append_eq_nil_iff] at hsilent
      have hwatchdog : (n.reception first.1 first.2).watchdog = n.watchdog :=
        (silent_reception hsilent.1).1
      cases hcheck : ((n.reception first.1 first.2).watchdog.check first.1).2 with
      | some s =>
          obtain ⟨hlatched, -⟩ := step_latches hcheck
          rw [Machine.final_cons, (hlatched.run rest).2.latch]
          rfl
      | none =>
          obtain ⟨hsame, hintime⟩ := Watchdog.check_none hcheck
          rw [hwatchdog] at hsame hintime
          have hnext : (n.step first.1 first.2).1.watchdog = n.watchdog := by
            rw [step_watchdog, hwatchdog, hsame]
          have hvalidator : (n.step first.1 first.2).1.validator =
              n.validator.validateAll first.2 := reception_validator n first.1 first.2
          rw [Machine.final_cons]
          apply ih
          · rw [safeState, hnext]
            exact hunlatched
          · rw [hvalidator]
            exact hsilent.2
          · rw [hnext]
            obtain ⟨i, hi, hlater⟩ := hlate
            rcases List.mem_cons.mp hi with rfl | hi
            · exact absurd hlater hintime
            · exact ⟨i, hi, hlater⟩

end ControlNode

/-- When a gap is not healed. Let a validator have accepted the number `last`, let the sender's next
`lost` frames, 1 to 255 of them, not arrive, and let its following valid in-range frames arrive in
order. These are all refused as out of order, and every node that reads them, in any steps, trips
once a step comes later than its budget allows, exactly if gap and continuation together are shorter
than 256 frames. -/
theorem gap_refused_iff {v : Validator} {last : UInt8} (hlast : v.lastSeq = some last) {lost : Nat}
    (hlost : 1 ≤ lost ∧ lost ≤ 255) {frames : List Frame}
    (hframes : Validator.Continues (last + 1 + UInt8.ofNat lost) frames) :
    ((∀ verdict ∈ Machine.trace Validator.validate v frames, Validator.IsOutOfOrder verdict) ∧
      ∀ (n : ControlNode F) (steps : List (UInt64 × List Frame)), n.validator = v →
        n.safeState = none → steps.flatMap Prod.snd = frames →
        (∃ i ∈ steps, n.watchdog.lastSeenUs.toNat + n.watchdog.timeoutUs.toNat < i.1.toNat) →
        (Machine.final (fun n i => ControlNode.step n i.1 i.2) n steps).safeState.isSome) ↔
      lost + frames.length < 256 := by
  rw [← Validator.out_of_order_after_gap hlast hlost hframes]
  refine ⟨fun h => h.1, fun hall => ⟨hall, ?_⟩⟩
  rintro n steps rfl hunlatched rfl hlate
  exact ControlNode.starved_trips hunlatched
    (Validator.accepted_payloads_of_out_of_order hall) hlate

/-- Two frames lost after number 254: the next two are refused, and a node with a 5 microsecond
budget trips. -/
theorem gap_refused_iff_two :
    let v : Validator := { Validator.new with lastSeq := some 254 }
    ∀ verdict ∈ Machine.trace Validator.validate v [sensorFrame 1 5 0, sensorFrame 2 6 0],
      Validator.IsOutOfOrder verdict := by
  intro v
  have hframes : Validator.Continues (254 + 1 + UInt8.ofNat 2)
      [sensorFrame 1 5 0, sensorFrame 2 6 0] :=
    ⟨Validator.sent_sensor_frame 1 0 (by decide), Validator.sent_sensor_frame 2 0 (by decide),
      trivial⟩
  exact ((gap_refused_iff (F := ℚ) (v := v) rfl (by decide) hframes).mpr (by decide)).1

/-- A gap as long as it can be: of the frames 0, 256 and 257 of a sender the validator accepts the
first, refuses the second as a duplicate and accepts the third. -/
theorem longest_gap_is_healed :
    let frames := [sensorFrame 0 5 0, sensorFrame 0 6 0, sensorFrame 1 7 0]
    Machine.trace Validator.validate .new frames =
      [.ok ⟨0, 5, 0⟩, .error .duplicate, .ok ⟨1, 7, 0⟩] := by
  decide +kernel

end Fieldbus
