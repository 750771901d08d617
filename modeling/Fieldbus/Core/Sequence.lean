import Mathlib.Data.List.Chain
import Fieldbus.Core.Validation

/-!
# The sequence discipline of the validator

A channel that delivers a sender's frames in order, repeats recent ones and adds frames that fail a
layout check is described by `Delivers`. The main theorem, `accepted_exactly_once`, says that the
validator accepts the sender's frames, each once and in order, and nothing else. The window of 255
is the largest that works: the copy one frame older carries the next expected number again.
-/

namespace Fieldbus.J1939

namespace Validator

variable {v : Validator} {frame : Frame} {p : Payload}

/-! ## Arbitrary input -/

/-- What can happen to a validator: a frame arrives or the sequence position is reset. -/
inductive Input where
  | frame (frame : Frame)
  | reset

/-- One input; a reset gives no verdict. -/
def stepInput (v : Validator) : Input → Validator × Option (Except Reject Payload)
  | .frame frame => ((v.validate frame).1, some (v.validate frame).2)
  | .reset => (v.resetSequence, none)

/-- On any frames the accepted numbers follow the last accepted one, each the successor of the one
before. -/
theorem accepted_payloads_chain (v : Validator) (frames : List Frame) :
    (∀ last ∈ v.lastSeq, ∀ p ∈ (v.acceptedPayloads frames).head?, p.seq = last + 1) ∧
      (v.acceptedPayloads frames).IsChain (fun p q => q.seq = p.seq + 1) := by
  induction frames generalizing v with
  | nil => simp [acceptedPayloads]
  | cons frame rest ih =>
      rcases validate_cases v frame with ⟨p, hok, -⟩ | ⟨r, herror, -⟩
      · have hsequence := (check_sequence_ok_iff _ _).mp ((classify_ok_iff _ _ _).mp hok).2.1
        obtain ⟨hhead, hchain⟩ := ih (v.accept p)
        rw [accepted_payloads_ok hok]
        refine ⟨by simpa using hsequence, List.isChain_cons.mpr ⟨?_, hchain⟩⟩
        intro q hq
        exact hhead p.seq rfl q hq
      -- a refusal leaves the sequence position where it was
      · rw [accepted_payloads_error herror]
        exact ih (v.refuse r)

/-! ## A sender behind a repeating, noisy channel -/

/-- A valid in-range sensor frame that carries the given number. -/
def Sent (frame : Frame) (seq : UInt8) : Prop :=
  ∃ p, frame.checkLayout = .ok p ∧ p.seq = seq ∧ checkRange p.value = .ok ()

/-- `Delivers start sent frames later` says that a channel which has delivered the sender's frames
`sent` (newest first, the oldest numbered `start`) can go on to deliver `frames`, of which `later`
are the sender's next ones. Besides these it delivers copies of the 255 newest sender frames and
frames that fail a layout check. -/
inductive Delivers (start : UInt8) : List Frame → List Frame → List Frame → Prop where
  | done (sent) : Delivers start sent [] []
  | next {sent frame frames later} :
      Sent frame (start + UInt8.ofNat sent.length) →
      Delivers start (frame :: sent) frames later →
      Delivers start sent (frame :: frames) (frame :: later)
  | copy {sent frame frames later} :
      frame ∈ sent.take 255 → Delivers start sent frames later →
      Delivers start sent (frame :: frames) later
  | noise {sent frame frames later} {r : Reject} :
      frame.checkLayout = .error r → Delivers start sent frames later →
      Delivers start sent (frame :: frames) later

/-- The sender's frames delivered so far are numbered consecutively from `start`. -/
def Numbered (start : UInt8) : List Frame → Prop
  | [] => True
  | frame :: older => Sent frame (start + UInt8.ofNat older.length) ∧ Numbered start older

/-- The validator expects the number that follows the frames delivered so far. -/
def Expects (start : UInt8) (sent : List Frame) (v : Validator) : Prop :=
  match sent with
  | [] => v.lastSeq = none
  | _ :: older => v.lastSeq = some (start + UInt8.ofNat older.length)

variable {start : UInt8} {sent : List Frame}

/-- Sequence numbers count up by one. -/
theorem number_succ (start : UInt8) (count : Nat) :
    start + UInt8.ofNat (count + 1) = start + UInt8.ofNat count + 1 := by
  rw [UInt8.ofNat_add, ← UInt8.add_assoc]
  rfl

/-- A frame delivered `distance` frames ago carries a number that much below the next one. -/
theorem Numbered.distance (hnumbered : Numbered start sent) {window : Nat}
    (hframe : frame ∈ sent.take window) :
    ∃ p distance, frame.checkLayout = .ok p ∧ 0 < distance ∧ distance ≤ window ∧
      p.seq + UInt8.ofNat distance = start + UInt8.ofNat sent.length := by
  induction sent generalizing window with
  | nil => simp at hframe
  | cons newest older ih =>
      obtain ⟨⟨p, hlayout, hseq, -⟩, holder⟩ := hnumbered
      cases window with
      | zero => simp at hframe
      | succ window =>
          rw [List.take_succ_cons, List.mem_cons] at hframe
          rcases hframe with rfl | hframe
          · refine ⟨p, 1, hlayout, by omega, by omega, ?_⟩
            rw [hseq]
            exact (number_succ start older.length).symm
          · obtain ⟨p, distance, hlayout, hpos, hle, hseq⟩ := ih holder hframe
            refine ⟨p, distance + 1, hlayout, by omega, by omega, ?_⟩
            rw [List.length_cons, number_succ, number_succ, hseq]

/-- The number after the frames delivered so far is the one the validator would accept. -/
theorem Expects.check_sequence (hexpects : Expects start sent v) {seq : UInt8}
    (hseq : seq = start + UInt8.ofNat sent.length) :
    checkSequence v.lastSeq seq = .ok () := by
  rw [check_sequence_ok_iff]
  intro last hlast
  cases sent with
  | nil => simp [Expects] at hexpects; simp [hexpects] at hlast
  | cons newest older =>
      rw [Expects] at hexpects
      obtain rfl : start + UInt8.ofNat older.length = last := by simpa [hexpects] using hlast
      rw [hseq, List.length_cons, number_succ]

/-- The sender's next frame is accepted. -/
theorem Expects.accepts_next (hexpects : Expects start sent v)
    (hframe : Sent frame (start + UInt8.ofNat sent.length)) :
    ∃ p, v.classify frame = .ok p ∧ Expects start (frame :: sent) (v.accept p) := by
  obtain ⟨p, hlayout, hseq, hrange⟩ := hframe
  refine ⟨p, (classify_ok_iff _ _ _).mpr ⟨hlayout, hexpects.check_sequence hseq, hrange⟩, ?_⟩
  simp [Expects, hseq]

/-- A copy of one of the 255 newest frames is refused: it would have to be 256 frames old to carry
the next expected number. -/
theorem Expects.refuses_copy (hexpects : Expects start sent v) (hnumbered : Numbered start sent)
    (hframe : frame ∈ sent.take 255) : ∃ r, v.classify frame = .error r := by
  rcases validate_cases v frame with ⟨q, hok, -⟩ | ⟨r, herror, -⟩
  · exfalso
    obtain ⟨p, distance, hlayout, hpos, hle, hseq⟩ := hnumbered.distance hframe
    obtain ⟨hlayout', hsequence, -⟩ := (classify_ok_iff _ _ _).mp hok
    obtain rfl : p = q := by simpa [hlayout] using hlayout'
    cases sent with
    | nil => simp at hframe
    | cons newest older =>
        rw [check_sequence_ok_iff] at hsequence
        -- an accepted copy carries the expected number, so its distance is a multiple of 256
        have hlast := hsequence _ hexpects
        have hnext : p.seq + UInt8.ofNat distance = p.seq + 0 := by
          rw [hseq, hlast, List.length_cons, number_succ, UInt8.add_zero]
        have hzero := UInt8.toNat_inj.mpr ((UInt8.add_right_inj p.seq).mp hnext)
        have hmod : distance % 256 = 0 := by simpa using hzero
        omega
  · exact ⟨r, herror⟩

/-- From any validator in step with the channel, the accepted frames are the sender's. -/
theorem Delivers.accepted_frames {frames later : List Frame}
    (hdelivers : Delivers start sent frames later) {v : Validator}
    (hexpects : Expects start sent v) (hnumbered : Numbered start sent) :
    v.acceptedFrames frames = later := by
  induction hdelivers generalizing v with
  | done => rfl
  | next hsent _ ih =>
      obtain ⟨p, hok, hexpects'⟩ := hexpects.accepts_next hsent
      rw [accepted_frames_ok hok, ih hexpects' ⟨hsent, hnumbered⟩]
  -- neither a copy nor noise moves the validator or the sender
  | copy hcopy _ ih =>
      obtain ⟨r, herror⟩ := hexpects.refuses_copy hnumbered hcopy
      rw [accepted_frames_error herror]
      exact ih hexpects hnumbered
  | noise hlayout _ ih =>
      rw [accepted_frames_error (classify_layout_error hlayout)]
      exact ih hexpects hnumbered

/-- A frame built by `sensor_frame` with an in-range value is a sender's frame. -/
theorem sent_sensor_frame (seq : UInt8) {value : Int16} (status : UInt8)
    (hrange : checkRange value = .ok ()) : Sent (sensorFrame seq value status) seq :=
  ⟨⟨seq, value, status⟩, sensor_frame_layout seq value status, rfl, hrange⟩

/-- Exactly-once, in-order acceptance. A new validator, and one whose sequence position was reset,
accept the sender's frames of any such delivery, each once and in order; and on arbitrary input the
accepted numbers between two resets are consecutive modulo 256. -/
theorem accepted_exactly_once :
    (∀ (start : UInt8) (first : Frame) (frames later : List Frame),
      Sent first start → Delivers start [first] frames later →
      ∀ v : Validator, v = new ∨ (∃ w : Validator, v = w.resetSequence) →
        v.acceptedFrames (first :: frames) = first :: later) ∧
    ∀ (v : Validator) (before : List Input) (between : List Frame),
      (((Machine.final stepInput v before).acceptedPayloads between).map
        Payload.seq).IsChain (fun a b => b = a + 1) := by
  refine ⟨?_, ?_⟩
  · intro start first frames later hfirst hdelivers v hv
    have hnone : v.lastSeq = none := by
      rcases hv with rfl | ⟨w, rfl⟩ <;> rfl
    -- the first delivery is the sender's step from the empty channel
    have hall : Delivers start [] (first :: frames) (first :: later) :=
      .next (by simpa using hfirst) hdelivers
    exact hall.accepted_frames hnone trivial
  · intro v before between
    rw [List.isChain_map]
    exact (accepted_payloads_chain _ between).2

/-- The wrap from 255 to 0, with a copy of the oldest frame and a short frame in between. -/
theorem accepted_exactly_once_wrap :
    new.acceptedFrames [sensorFrame 255 5 0, { sensorFrame 1 7 0 with dlc := 4 },
      sensorFrame 0 6 0, sensorFrame 255 5 0] = [sensorFrame 255 5 0, sensorFrame 0 6 0] := by
  refine accepted_exactly_once.1 255 _ _ _ (sent_sensor_frame 255 0 (by decide)) ?_ _ (.inl rfl)
  refine .noise (short_frame_layout (by decide)) (.next (sent_sensor_frame 0 0 (by decide)) ?_)
  exact .copy (by simp) (.done _)

end Validator

end Fieldbus.J1939
