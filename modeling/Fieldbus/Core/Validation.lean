import Fieldbus.Core.J1939

/-!
# What the validator accepts

One specification for each function of `J1939`: the payload codec is inverse on encoded payloads
(`decode_encode`), a well-formed sensor frame passes the layout checks (`sensor_frame_layout`), and
`classify_ok_iff` splits acceptance into layout, sequence and range. The last section computes the
verdict on each kind of damaged frame.
-/

namespace Fieldbus.J1939

namespace Payload

/-- `from_le_bytes` undoes `to_le_bytes`. -/
theorem from_to_le_bytes (value : Int16) :
    fromLeBytes (toLeBytes value).1 (toLeBytes value).2 = value := by
  apply Int16.toBitVec_inj.mp
  apply BitVec.eq_of_getLsbD_eq
  intro i hi
  simp only [fromLeBytes, toLeBytes, UInt16.toBitVec_toInt16, UInt16.toBitVec_or,
    UInt16.toBitVec_shiftLeft, UInt16.toBitVec_shiftRight, UInt8.toBitVec_toUInt16,
    UInt16.toBitVec_toUInt8, Int16.toBitVec_toUInt16, BitVec.getLsbD_or]
  -- bits 0 to 7 come from the low byte, the others from the high one
  by_cases hlow : i < 8
  · simp [hi, hlow]
  · have hhigh : i - 8 < 8 := by omega
    simp [hi, hlow, hhigh, show 8 + (i - 8) = i by omega]

variable (p : Payload)

/-- Decoding an encoded payload gives it back. -/
@[simp] theorem decode_encode : decode (encode p) = p := by
  have hvalue : fromLeBytes (encode p)[1] (encode p)[2] = p.value := from_to_le_bytes p.value
  simp [decode, hvalue]

end Payload

/-! ## Acceptance -/

/-- The sequence check passes exactly on the successor of the last accepted number. -/
theorem check_sequence_ok_iff (lastSeq : Option UInt8) (seq : UInt8) :
    checkSequence lastSeq seq = .ok () ↔ ∀ last ∈ lastSeq, seq = last + 1 := by
  cases lastSeq with
  | none => simp [checkSequence]
  | some last =>
      -- the number asked for is never also a duplicate
      have hne : last + 1 ≠ last := by simp
      simp only [checkSequence, Option.mem_def, Option.some.injEq, forall_eq']
      by_cases hseq : seq = last + 1
      · simp [hseq, hne]
      · by_cases hdup : seq = last <;> simp [hseq, hdup]

/-- The range check passes exactly on values within the inclusive bounds. -/
theorem check_range_ok_iff (value : Int16) :
    checkRange value = .ok () ↔ valueMin ≤ value ∧ value ≤ valueMax := by
  unfold checkRange
  split
  · rename_i h
    simp only [reduceCtorEq, false_iff, not_and_or, Int16.not_le]
    exact h
  · rename_i h
    rw [not_or] at h
    simpa [Int16.not_lt] using h

namespace Validator

variable (v : Validator) (frame : Frame) (p : Payload)

/-- A frame is accepted exactly when layout, sequence and range checks pass. -/
theorem classify_ok_iff :
    v.classify frame = .ok p ↔
      frame.checkLayout = .ok p ∧ checkSequence v.lastSeq p.seq = .ok () ∧
        checkRange p.value = .ok () := by
  unfold classify
  cases frame.checkLayout with
  | error r => simp [bind, Except.bind]
  | ok q =>
      cases hseq : checkSequence v.lastSeq q.seq with
      | error r =>
          simp only [bind, Except.bind, hseq, Except.ok.injEq, reduceCtorEq, false_iff]
          rintro ⟨rfl, h, -⟩
          simp [hseq] at h
      | ok u =>
          cases hrange : checkRange q.value with
          | error r =>
              simp only [bind, Except.bind, hseq, hrange, Except.ok.injEq, reduceCtorEq, false_iff]
              rintro ⟨rfl, -, h⟩
              simp [hrange] at h
          | ok u =>
              simp only [bind, Except.bind, hseq, hrange, pure, Except.pure, Except.ok.injEq]
              constructor
              · rintro rfl
                exact ⟨rfl, hseq, hrange⟩
              · exact fun h => h.1

variable {v frame p}

/-- A layout error is the verdict, whatever the validator has seen. -/
theorem classify_layout_error {r : Reject} (h : frame.checkLayout = .error r) :
    v.classify frame = .error r := by
  simp [classify, h, bind, Except.bind]

/-- Behind a good layout, a sequence error is the verdict. -/
theorem classify_sequence_error {r : Reject} (h : frame.checkLayout = .ok p)
    (hseq : checkSequence v.lastSeq p.seq = .error r) : v.classify frame = .error r := by
  simp [classify, h, hseq, bind, Except.bind]

/-- Behind a good layout and sequence number, a range error is the verdict. -/
theorem classify_range_error {r : Reject} (h : frame.checkLayout = .ok p)
    (hseq : checkSequence v.lastSeq p.seq = .ok ()) (hrange : checkRange p.value = .error r) :
    v.classify frame = .error r := by
  simp [classify, h, hseq, hrange, bind, Except.bind]

theorem validate_ok (h : v.classify frame = .ok p) : v.validate frame = (v.accept p, .ok p) := by
  simp [validate, h]

theorem validate_error {r : Reject} (h : v.classify frame = .error r) :
    v.validate frame = (v.refuse r, .error r) := by
  simp [validate, h]

/-- Validation either accepts a payload or refuses for a reason. -/
theorem validate_cases (v : Validator) (frame : Frame) :
    (∃ p, v.classify frame = .ok p ∧ v.validate frame = (v.accept p, .ok p)) ∨
      ∃ r, v.classify frame = .error r ∧ v.validate frame = (v.refuse r, .error r) := by
  cases h : v.classify frame with
  | ok p => exact .inl ⟨p, rfl, validate_ok h⟩
  | error r => exact .inr ⟨r, rfl, validate_error h⟩

@[simp] theorem accept_last_seq (v : Validator) (p : Payload) :
    (v.accept p).lastSeq = some p.seq := rfl
@[simp] theorem accept_accepted (v : Validator) (p : Payload) :
    (v.accept p).accepted = v.accepted + 1 := rfl
@[simp] theorem accept_by_reason (v : Validator) (p : Payload) :
    (v.accept p).byReason = v.byReason := rfl

/-- A refusal counts under its own reason. -/
theorem refuse_by_reason (v : Validator) (r : Reject) (i : Fin 8) :
    (v.refuse r).byReason.get i = v.byReason.get i + if r.index = i then 1 else 0 := by
  show (v.refuse r).byReason[(i : Nat)] = v.byReason[(i : Nat)] + _
  by_cases h : r.index = i
  · subst h
    simp [refuse]
  · have hne : (r.index : Nat) ≠ i := fun heq => h (Fin.ext heq)
    simp [refuse, h, hne]

/-- The verdict reads only the sequence position of the validator. -/
theorem classify_congr {w : Validator} (h : v.lastSeq = w.lastSeq) (frame : Frame) :
    v.classify frame = w.classify frame := by
  simp [classify, h]

/-! ## Lists of frames -/

/-- The frames of a list that the validator accepts when it reads the list in order. -/
def acceptedFrames : Validator → List Frame → List Frame
  | _, [] => []
  | v, frame :: rest =>
      match v.validate frame with
      | (w, .ok _) => frame :: acceptedFrames w rest
      | (w, .error _) => acceptedFrames w rest

/-- The payloads of the accepted frames, in order. -/
def acceptedPayloads (v : Validator) (frames : List Frame) : List Payload :=
  (Machine.trace validate v frames).filterMap Except.toOption

theorem accepted_frames_ok (h : v.classify frame = .ok p) (rest : List Frame) :
    v.acceptedFrames (frame :: rest) = frame :: (v.accept p).acceptedFrames rest := by
  simp [acceptedFrames, validate_ok h]

theorem accepted_frames_error {r : Reject} (h : v.classify frame = .error r) (rest : List Frame) :
    v.acceptedFrames (frame :: rest) = (v.refuse r).acceptedFrames rest := by
  simp [acceptedFrames, validate_error h]

theorem accepted_payloads_ok (h : v.classify frame = .ok p) (rest : List Frame) :
    v.acceptedPayloads (frame :: rest) = p :: (v.accept p).acceptedPayloads rest := by
  simp [acceptedPayloads, validate_ok h, Except.toOption]

theorem accepted_payloads_error {r : Reject} (h : v.classify frame = .error r)
    (rest : List Frame) :
    v.acceptedPayloads (frame :: rest) = (v.refuse r).acceptedPayloads rest := by
  have hnone : Except.toOption (.error r : Except Reject Payload) = none := rfl
  simp [acceptedPayloads, validate_error h, hnone]

/-- The validator after a list of frames. -/
def validateAll (v : Validator) (frames : List Frame) : Validator :=
  Machine.final validate v frames

theorem accepted_payloads_append (v : Validator) (first second : List Frame) :
    v.acceptedPayloads (first ++ second) =
      v.acceptedPayloads first ++ (v.validateAll first).acceptedPayloads second := by
  rw [acceptedPayloads, Machine.trace_append, List.filterMap_append]
  rfl

theorem validate_all_ok (h : v.classify frame = .ok p) (rest : List Frame) :
    v.validateAll (frame :: rest) = (v.accept p).validateAll rest := by
  simp [validateAll, validate_ok h]

theorem validate_all_error {r : Reject} (h : v.classify frame = .error r) (rest : List Frame) :
    v.validateAll (frame :: rest) = (v.refuse r).validateAll rest := by
  simp [validateAll, validate_error h]

end Validator

/-! ## Frames of the sensor stream -/

/-- A frame built by `sensor_frame` passes the layout checks with its own payload. -/
theorem sensor_frame_layout (seq : UInt8) (value : Int16) (status : UInt8) :
    (sensorFrame seq value status).checkLayout = .ok ⟨seq, value, status⟩ := by
  have hpgn : (Id.unpack (sensorFrame seq value status).id).pgn = pgnSensor := by
    show (Id.unpack (Id.fromPgn priority pgnSensor saSensor).pack).pgn = pgnSensor
    decide
  have hsource : (Id.unpack (sensorFrame seq value status).id).sourceAddress = saSensor := by
    show (Id.unpack (Id.fromPgn priority pgnSensor saSensor).pack).sourceAddress = saSensor
    decide
  have hcrc := Payload.encode_crc ⟨seq, value, status⟩
  simp only [Frame.checkLayout, hpgn, hsource]
  simp [sensorFrame, hcrc]

/-- Flipping bits of the CRC byte of a frame that passed the layout checks is caught as a bad
CRC. -/
theorem flipped_crc_layout {frame : Frame} {p : Payload} (h : frame.checkLayout = .ok p)
    {mask : UInt8} (hmask : mask ≠ 0) : (frame.flipCrc mask).checkLayout = .error .badCrc := by
  have hflip (byte : UInt8) : byte ^^^ mask ≠ byte := fun hbyte =>
    hmask ((UInt8.xor_right_inj byte).mp (hbyte.trans UInt8.xor_zero.symm))
  unfold Frame.checkLayout at h ⊢
  split at h
  · simp at h
  rename_i hlength
  split at h
  · simp at h
  rename_i hpgn
  split at h
  · simp at h
  rename_i hsource
  split at h
  · simp at h
  rename_i hcrc
  rw [not_not] at hcrc
  -- the CRC does not cover the byte that was changed
  have htake : (frame.data.set 7 (frame.data[7] ^^^ mask)).toList.take 7 =
      frame.data.toList.take 7 := by
    simp [Vector.toList_set, List.take_set_of_le]
  simp only [Frame.flipCrc, hlength, hpgn, hsource, htake, ← hcrc, if_false]
  simp [hflip]

/-- Inverting the CRC byte of a frame that passed the layout checks is caught as a bad CRC. -/
theorem inverted_crc_layout {frame : Frame} {p : Payload} (h : frame.checkLayout = .ok p) :
    frame.invertCrc.checkLayout = .error .badCrc :=
  flipped_crc_layout h (by decide)

/-- A frame whose length is not eight is refused for its length. -/
theorem short_frame_layout {frame : Frame} (h : frame.dlc ≠ payloadLen) :
    frame.checkLayout = .error .badLength := by
  simp [Frame.checkLayout, h]

end Fieldbus.J1939
