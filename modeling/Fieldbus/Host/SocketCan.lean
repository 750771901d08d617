import Fieldbus.Core.Language
import Fieldbus.Host.Bus

/-!
# The SocketCAN conversions

After `host/src/socketcan.rs`. The `socketcan` crate is not part of the repository: `Crate` is the
part of it that the conversions call and `Crate.Documented` what they rely on. A frame that names
more than eight bytes is sent with eight, so it comes back with another length than it left with;
`round_trip_iff` says that this is the only way in which the path changes a verdict.
-/

namespace Fieldbus.SocketCan

open J1939

/-- The crate's `Id`. -/
inductive CanId (StandardId ExtendedId : Type) where
  | standard (id : StandardId)
  | extended (id : ExtendedId)

/-- What the backend uses of the `socketcan` crate. -/
structure Crate where
  StandardId : Type
  ExtendedId : Type
  CanDataFrame : Type
  CanRemoteFrame : Type
  CanErrorFrame : Type
  /-- `ExtendedId::new`. -/
  extendedId : UInt32 → Option ExtendedId
  /-- `ExtendedId::as_raw`. -/
  asRaw : ExtendedId → UInt32
  /-- `CanDataFrame::new`. -/
  dataFrame : CanId StandardId ExtendedId → List UInt8 → Option CanDataFrame
  /-- `CanDataFrame::id`. -/
  id : CanDataFrame → CanId StandardId ExtendedId
  /-- `CanDataFrame::data`. -/
  data : CanDataFrame → List UInt8

/-- The crate's `CanFrame`. -/
inductive CanFrame (c : Crate) where
  | data (frame : c.CanDataFrame)
  | remote (frame : c.CanRemoteFrame)
  | error (frame : c.CanErrorFrame)

namespace Crate

/-- The documented behaviour: an extended identifier holds any 29 bits, a data frame takes an
extended identifier with at most eight bytes, and both return what they were given. -/
structure Documented (c : Crate) : Prop where
  extended_id_isSome : ∀ raw, (c.extendedId raw).isSome ↔ raw.toNat < 2 ^ 29
  as_raw : ∀ raw id, c.extendedId raw = some id → c.asRaw id = raw
  data_frame_isSome : ∀ id bytes, bytes.length ≤ 8 → (c.dataFrame (.extended id) bytes).isSome
  id_eq : ∀ id bytes frame, c.dataFrame id bytes = some frame → c.id frame = id
  data_eq : ∀ id bytes frame, c.dataFrame id bytes = some frame → c.data frame = bytes

/-- Convert a SocketCAN frame; anything but a data frame with an extended identifier is dropped. -/
def fromSocketcan (c : Crate) : CanFrame c → Option Frame
  | .remote _ | .error _ => none
  | .data dataFrame =>
      match c.id dataFrame with
      | .standard _ => none
      | .extended id =>
          let payload := c.data dataFrame
          let n := min payload.length 8
          some {
            id := c.asRaw id
            -- the real length, not that of the copy
            dlc := UInt8.ofNat payload.length
            data := Vector.ofFn fun i => if (i : Nat) < n then payload.getD i 0 else 0 }

/-- The digits of `{:#x}`. -/
def hexLiteral (value : UInt32) : String :=
  "0x" ++ String.ofList (Nat.toDigits 16 value.toNat)

/-- Convert a frame into a SocketCAN data frame. -/
def toSocketcan (c : Crate) (frame : Frame) : Except BusError c.CanDataFrame :=
  match c.extendedId frame.id with
  | none => .error (.io ("identifier " ++ hexLiteral frame.id ++ " exceeds 29 bits"))
  | some id =>
      let n := min frame.dlc.toNat 8
      match c.dataFrame (.extended id) (frame.data.toList.take n) with
      | none => .error (.io ("cannot build a CAN frame with dlc " ++ toString frame.dlc.toNat))
      | some dataFrame => .ok dataFrame

variable {c : Crate} {frame : Frame}

/-- A conversion succeeds with the identifier and the first bytes of the frame. -/
theorem to_socketcan_ok {dataFrame : c.CanDataFrame} (h : c.toSocketcan frame = .ok dataFrame) :
    ∃ id, c.extendedId frame.id = some id ∧
      c.dataFrame (.extended id) (frame.data.toList.take (min frame.dlc.toNat 8)) =
        some dataFrame := by
  unfold toSocketcan at h
  cases hid : c.extendedId frame.id with
  | none => simp [hid] at h
  | some id =>
      refine ⟨id, rfl, ?_⟩
      cases hframe :
          c.dataFrame (.extended id) (frame.data.toList.take (min frame.dlc.toNat 8)) with
      | none => simp [hid, hframe] at h
      | some built =>
          simp only [hid, hframe, Except.ok.injEq] at h
          rw [h]

/-- Every 29-bit identifier converts, whatever the length says: the second error never occurs. -/
theorem to_socketcan_isOk_iff (hc : c.Documented) :
    (∃ dataFrame, c.toSocketcan frame = .ok dataFrame) ↔ frame.id.toNat < 2 ^ 29 := by
  rw [← hc.extended_id_isSome]
  constructor
  · rintro ⟨dataFrame, h⟩
    obtain ⟨id, hid, -⟩ := to_socketcan_ok h
    simp [hid]
  · intro h
    obtain ⟨id, hid⟩ := Option.isSome_iff_exists.mp h
    have hlength : (frame.data.toList.take (min frame.dlc.toNat 8)).length ≤ 8 := by
      rw [List.length_take]
      omega
    obtain ⟨dataFrame, hframe⟩ :=
      Option.isSome_iff_exists.mp (hc.data_frame_isSome id _ hlength)
    exact ⟨dataFrame, by simp [toSocketcan, hid, hframe]⟩

/-- What comes back from the conversions: the identifier, at most eight bytes and their number. -/
def roundTrip (frame : Frame) : Frame where
  id := frame.id
  dlc := if frame.dlc ≤ 8 then frame.dlc else 8
  data := Vector.ofFn fun i => if (i : Nat) < frame.dlc.toNat then frame.data.get i else 0

theorem from_to_socketcan (hc : c.Documented) {dataFrame : c.CanDataFrame}
    (h : c.toSocketcan frame = .ok dataFrame) :
    c.fromSocketcan (.data dataFrame) = some (roundTrip frame) := by
  obtain ⟨id, hid, hframe⟩ := to_socketcan_ok h
  have hsize : frame.data.toList.length = 8 := by simp
  have hlength : (frame.data.toList.take (min frame.dlc.toNat 8)).length =
      min frame.dlc.toNat 8 := by
    rw [List.length_take, hsize]
    omega
  simp only [fromSocketcan, hc.id_eq _ _ _ hframe, hc.data_eq _ _ _ hframe, hc.as_raw _ _ hid,
    hlength, roundTrip, Option.some.injEq, Frame.mk.injEq, true_and]
  refine ⟨?_, ?_⟩
  · rw [← UInt8.toNat_inj, UInt8.toNat_ofNat']
    split
    · rename_i hle
      have hdlc : frame.dlc.toNat ≤ 8 := UInt8.le_iff_toNat_le.mp hle
      omega
    · rename_i hlong
      have hdlc : ¬ frame.dlc.toNat ≤ 8 := fun h => hlong (UInt8.le_iff_toNat_le.mpr h)
      show _ = 8
      omega
  · congr 1
    funext i
    have hbound : (i : Nat) < min (min frame.dlc.toNat 8) 8 ↔ (i : Nat) < frame.dlc.toNat := by
      omega
    simp only [hbound]
    split
    · rename_i hi
      rw [List.getD_eq_getElem?_getD, List.getElem?_take_of_lt (by omega)]
      simp [Vector.get]
    · rfl

/-- The bytes of a frame come back if there is nothing behind those it names. -/
theorem round_trip_data (hzero : ∀ i : Fin 8, frame.dlc.toNat ≤ i → frame.data.get i = 0) :
    (roundTrip frame).data = frame.data := by
  apply Vector.ext
  intro i hi
  rw [roundTrip, Vector.getElem_ofFn]
  split
  · rfl
  · rename_i hbeyond
    exact (hzero ⟨i, hi⟩ (not_lt.mp hbeyond)).symm

/-- A frame of at most eight bytes with nothing behind them comes back as it was. -/
theorem round_trip_eq (hdlc : frame.dlc ≤ 8)
    (hzero : ∀ i : Fin 8, frame.dlc.toNat ≤ i → frame.data.get i = 0) :
    roundTrip frame = frame := by
  have hlength : (roundTrip frame).dlc = frame.dlc := if_pos hdlc
  rw [Frame.mk.injEq]
  exact ⟨rfl, hlength, round_trip_data hzero⟩

/-- A frame that names more than eight bytes comes back as one of eight. -/
theorem round_trip_long (hdlc : ¬ frame.dlc ≤ 8) : roundTrip frame = { frame with dlc := 8 } := by
  have hlong : ¬ frame.dlc.toNat ≤ 8 := fun h => hdlc (UInt8.le_iff_toNat_le.mpr h)
  have hlength : (roundTrip frame).dlc = 8 := if_neg hdlc
  rw [Frame.mk.injEq]
  -- there is nothing behind more than eight bytes
  exact ⟨rfl, hlength, round_trip_data fun i hi => by omega⟩

/-- A frame of another length than eight is refused for its length. -/
theorem validate_other_length (v : Validator) (h : frame.dlc ≠ 8) :
    v.validate frame = (v.refuse .badLength, .error .badLength) := by
  have hlayout : frame.checkLayout = .error .badLength := by
    simp [Frame.checkLayout, payloadLen, h]
  exact Validator.validate_error (Validator.classify_layout_error hlayout)

theorem validate_round_trip_of_le (v : Validator) (hdlc : frame.dlc ≤ 8) :
    v.validate (roundTrip frame) = v.validate frame := by
  by_cases height : frame.dlc = 8
  · rw [round_trip_eq hdlc]
    intro i hi
    have hlt := i.isLt
    rw [height] at hi
    exact absurd hi (not_le.mpr hlt)
  · have hback : (roundTrip frame).dlc ≠ 8 := by
      rw [roundTrip, if_pos hdlc]
      exact height
    rw [validate_other_length v height, validate_other_length v hback]

/-- With eight bytes the length is not what is refused. -/
theorem validate_eight_bytes (v : Validator) (h : frame.dlc = 8) :
    (v.validate frame).2 ≠ .error .badLength := by
  intro hrefused
  rcases v.validate_cases frame with ⟨p, -, hvalidate⟩ | ⟨r, hclassify, hvalidate⟩
  · rw [hvalidate] at hrefused
    cases hrefused
  · rw [hvalidate] at hrefused
    cases hrefused
    exact (Validator.classify_first_failing hclassify).1.2 h

/-- The path preserves verdict, state and frame if and only if the frame names at most eight
bytes. -/
theorem round_trip_iff (hc : c.Documented) {dataFrame : c.CanDataFrame}
    (h : c.toSocketcan frame = .ok dataFrame) (v : Validator) :
    (∃ back, c.fromSocketcan (.data dataFrame) = some back ∧
      v.validate back = v.validate frame ∧
        ((∀ i : Fin 8, frame.dlc.toNat ≤ i → frame.data.get i = 0) → back = frame)) ↔
      frame.dlc ≤ 8 := by
  rw [from_to_socketcan hc h]
  constructor
  · rintro ⟨back, hback, hverdict, -⟩
    obtain rfl := Option.some.inj hback
    by_contra hlong
    have hback : (roundTrip frame).dlc = 8 := by rw [round_trip_long hlong]
    have hother : frame.dlc ≠ 8 := fun heq => hlong (heq ▸ UInt8.le_refl 8)
    apply validate_eight_bytes v hback
    rw [hverdict, validate_other_length v hother]
  · intro hdlc
    exact ⟨_, rfl, validate_round_trip_of_le v hdlc, round_trip_eq hdlc⟩

/-- A crate that stores what it is given. -/
def storing : Crate where
  StandardId := UInt16
  ExtendedId := { raw : UInt32 // raw.toNat < 2 ^ 29 }
  CanDataFrame := CanId UInt16 { raw : UInt32 // raw.toNat < 2 ^ 29 } × List UInt8
  CanRemoteFrame := CanId UInt16 { raw : UInt32 // raw.toNat < 2 ^ 29 } × Nat
  CanErrorFrame := UInt32 × List UInt8
  extendedId raw := if h : raw.toNat < 2 ^ 29 then some ⟨raw, h⟩ else none
  asRaw id := id.val
  dataFrame id bytes := if bytes.length ≤ 8 then some (id, bytes) else none
  id frame := frame.1
  data frame := frame.2

theorem storing_frame {id : CanId storing.StandardId storing.ExtendedId} {bytes : List UInt8}
    {frame : storing.CanDataFrame}
    (h : storing.dataFrame id bytes = some frame) : frame = (id, bytes) := by
  simp only [storing] at h
  split at h
  · exact (Option.some.inj h).symm
  · cases h

theorem storing_documented : storing.Documented := by
  refine ⟨fun raw => ?_, fun raw id h => ?_, fun id bytes h => ?_, fun id bytes frame h => ?_,
    fun id bytes frame h => ?_⟩
  · simp only [storing]
    split
    · rename_i hraw
      exact iff_of_true rfl hraw
    · rename_i hraw
      exact iff_of_false (by simp) hraw
  · simp only [storing] at h
    split at h
    · obtain rfl := Option.some.inj h
      rfl
    · cases h
  · simp [storing, h]
  · rw [storing_frame h]
    rfl
  · rw [storing_frame h]
    rfl

/-- A sensor frame through a crate that stores what it is given. -/
theorem round_trip_sensor_frame :
    ∃ dataFrame, storing.toSocketcan (sensorFrame 1 5 0) = .ok dataFrame ∧
      ((∃ back, storing.fromSocketcan (.data dataFrame) = some back ∧
        Validator.new.validate back = Validator.new.validate (sensorFrame 1 5 0) ∧
          ((∀ i : Fin 8, (sensorFrame 1 5 0).dlc.toNat ≤ i →
            (sensorFrame 1 5 0).data.get i = 0) → back = sensorFrame 1 5 0)) ↔
        (sensorFrame 1 5 0).dlc ≤ 8) :=
  ⟨_, rfl, round_trip_iff storing_documented rfl Validator.new⟩

/-- A frame that names nine bytes is refused for its length, and accepted when it comes back. -/
theorem nine_bytes_accepted :
    ∃ dataFrame back, storing.toSocketcan { sensorFrame 1 5 0 with dlc := 9 } = .ok dataFrame ∧
      storing.fromSocketcan (.data dataFrame) = some back ∧
      (Validator.new.validate { sensorFrame 1 5 0 with dlc := 9 }).2 = .error .badLength ∧
      (Validator.new.validate back).2 = .ok ⟨1, 5, 0⟩ := by
  have hid : ({ sensorFrame 1 5 0 with dlc := 9 } : Frame).id.toNat < 2 ^ 29 := by decide
  obtain ⟨dataFrame, hsent⟩ := (to_socketcan_isOk_iff storing_documented).mpr hid
  have hback : roundTrip { sensorFrame 1 5 0 with dlc := 9 } = sensorFrame 1 5 0 :=
    round_trip_long (by decide)
  refine ⟨dataFrame, _, hsent, from_to_socketcan storing_documented hsent, ?_, ?_⟩
  · rw [validate_other_length _ (by decide)]
  · have hclassify : Validator.new.classify (sensorFrame 1 5 0) = .ok ⟨1, 5, 0⟩ :=
      (Validator.classify_ok_iff _ _ _).mpr ⟨sensor_frame_layout 1 5 0, rfl, rfl⟩
    rw [hback, Validator.validate_ok hclassify]

end Crate

end Fieldbus.SocketCan
