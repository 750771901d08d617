import Fieldbus.Library.Crc
import Fieldbus.Core.Validation

/-!
# Corruption that the CRC finds

The payload CRC is the register of `Library.Crc` at width eight, fed one byte at a time from `0xFF`.
A corrupted frame has the right CRC exactly when the 64 flipped bits have remainder zero
(`corrupt_crc_iff`): the data and the initial value cancel. The register has period 255, so no one
or two flips and no burst of a byte's length gets through.
-/

namespace Fieldbus.J1939

/-- The 64 data bits in the order of transmission, each byte from its most significant bit. -/
def dataBits (d : Vector UInt8 8) : List Bool :=
  d.toList.flatMap fun byte => Crc.wordBits byte.toBitVec

/-- The frame with the data bits of a pattern flipped. -/
def Frame.corrupt (frame : Frame) (pattern : Vector UInt8 8) : Frame :=
  { frame with data := frame.data.zipWith (· ^^^ ·) pattern }

/-- The pattern flips one data bit, or two. -/
def FlipsOneOrTwo (pattern : Vector UInt8 8) : Prop :=
  ∃ i < 64, ∃ j < 64, ∀ k < 64, (dataBits pattern)[k]? = some true ↔ k = i ∨ k = j

/-- The pattern flips something, all of it within eight consecutive data bits. -/
def IsBurst (pattern : Vector UInt8 8) : Prop :=
  (∃ k < 64, (dataBits pattern)[k]? = some true) ∧
    ∃ start, ∀ k < 64, (dataBits pattern)[k]? = some true → start ≤ k ∧ k < start + 8

@[simp] theorem length_data_bits (d : Vector UInt8 8) : (dataBits d).length = 64 := by
  have hbytes : ∀ bytes : List UInt8,
      (bytes.flatMap fun byte => Crc.wordBits byte.toBitVec).length = 8 * bytes.length := by
    intro bytes
    induction bytes with
    | nil => rfl
    | cons byte bytes ih =>
        rw [List.flatMap_cons, List.length_append, ih, Crc.length_word_bits, List.length_cons]
        omega
  rw [dataBits, hbytes, Vector.length_toList]

/-! ## The code's register -/

/-- The lower coefficients of the SAE J1850 polynomial. -/
def crcPoly : BitVec 8 := 0x1D#8

theorem crc_shift_to_bitvec (crc : UInt8) :
    (crcShift crc).toBitVec = Crc.shift crcPoly crc.toBitVec := by
  have hbits : ∀ c : BitVec 8, c &&& 0x80#8 = 0#8 ↔ c.msb = false := by decide
  have htop : crc &&& 0x80 = 0 ↔ crc.toBitVec.msb = false := by
    rw [← hbits, ← UInt8.toBitVec_inj]
    rfl
  unfold crcShift Crc.shift
  by_cases h : crc &&& 0x80 = 0
  · rw [if_neg (not_not.mpr h), htop.mp h]
    simp
  · have hmsb : crc.toBitVec.msb = true := by simpa using mt htop.mpr h
    rw [if_pos h, hmsb]
    simp [crcPoly]

theorem crc_byte_to_bitvec (crc byte : UInt8) :
    (crcByte crc byte).toBitVec = Crc.feed crcPoly crc.toBitVec byte.toBitVec := by
  have hiterate : ∀ n (c : UInt8),
      (crcShift^[n] c).toBitVec = (Crc.shift crcPoly)^[n] c.toBitVec := by
    intro n
    induction n with
    | zero => exact fun _ => rfl
    | succ n ih =>
        intro c
        rw [Function.iterate_succ_apply, ih, crc_shift_to_bitvec, Function.iterate_succ_apply]
  show (crcShift^[8] (crc ^^^ byte)).toBitVec = _
  rw [hiterate, UInt8.toBitVec_xor]
  rfl

theorem crc_foldl_to_bitvec (bytes : List UInt8) (crc : UInt8) :
    (bytes.foldl crcByte crc).toBitVec =
      (bytes.map UInt8.toBitVec).foldl (Crc.feed crcPoly) crc.toBitVec := by
  induction bytes generalizing crc with
  | nil => rfl
  | cons byte bytes ih => rw [List.foldl_cons, ih, crc_byte_to_bitvec]; rfl

theorem crcPoly_odd : crcPoly.getLsbD 0 = true := rfl

/-- The register does not come back to one within the 64 bits of a payload. -/
theorem crcPoly_period : ∀ n, 0 < n → n < 64 → (Crc.shift crcPoly)^[n] 1#8 ≠ 1#8 := by
  have hfinite : ∀ n < 64, 0 < n → (Crc.shift crcPoly)^[n] 1#8 ≠ 1#8 := by decide +kernel
  exact fun n hpos hlt => hfinite n hlt hpos

/-! ## Corrupted frames -/

variable {frame : Frame} {pattern : Vector UInt8 8}

/-- Behind a right CRC, a corrupted frame has the right CRC exactly when the flipped bits have
remainder zero. -/
theorem corrupt_crc_iff (hcrc : frame.crc = crc8J1850 (frame.data.toList.take 7)) :
    (frame.corrupt pattern).crc = crc8J1850 ((frame.corrupt pattern).data.toList.take 7) ↔
      Crc.remainder crcPoly (dataBits pattern) = 0#8 := by
  have hlast : (frame.corrupt pattern).crc = frame.crc ^^^ pattern[7] := by
    simp [Frame.crc, Frame.corrupt]
  have hcovered : ((frame.corrupt pattern).data.toList.take 7).map UInt8.toBitVec =
      List.zipWith (· ^^^ ·) ((frame.data.toList.take 7).map UInt8.toBitVec)
        ((pattern.toList.take 7).map UInt8.toBitVec) := by
    rw [Frame.corrupt, Vector.toList_zipWith, List.take_zipWith, List.map_zipWith,
      List.zipWith_map]
    rfl
  have hsplit : pattern.toList = pattern.toList.take 7 ++ [pattern[7]] := by
    have hjoin := List.take_append_getElem (l := pattern.toList) (i := 7) (by simp)
    have hwhole : pattern.toList.take (7 + 1) = pattern.toList := List.take_of_length_le (by simp)
    rw [hwhole] at hjoin
    exact hjoin.symm
  have hpattern : dataBits pattern =
      ((pattern.toList.take 7).map UInt8.toBitVec ++ [pattern[7].toBitVec]).flatMap
        Crc.wordBits := by
    rw [dataBits]
    conv_lhs => rw [hsplit]
    rw [List.flatMap_append, List.flatMap_append, List.flatMap_map]
    rfl
  -- the register of the corrupted bytes is that of the data and that of the pattern together
  have hregister : (crc8J1850 ((frame.corrupt pattern).data.toList.take 7)).toBitVec =
      frame.crc.toBitVec ^^^
        ((pattern.toList.take 7).map UInt8.toBitVec).foldl (Crc.feed crcPoly) 0#8 := by
    rw [hcrc, crc8J1850, crc8J1850, crc_foldl_to_bitvec, crc_foldl_to_bitvec, hcovered,
      ← Crc.foldl_feed_xor crcPoly (by simp), BitVec.xor_zero]
  rw [← UInt8.toBitVec_inj, hregister, hlast, UInt8.toBitVec_xor, BitVec.xor_right_inj, hpattern,
    ← Crc.foldl_feed_xor_check, BitVec.xor_eq_zero_iff]
  exact eq_comm

/-- One or two flips have a remainder, and so has a burst. -/
theorem pattern_remainder_ne_zero (hpattern : FlipsOneOrTwo pattern ∨ IsBurst pattern) :
    Crc.remainder crcPoly (dataBits pattern) ≠ 0#8 := by
  have hin : ∀ k, (dataBits pattern)[k]? = some true → k < 64 := by
    intro k hk
    have hlt := (List.getElem?_eq_some_iff.mp hk).1
    simpa using hlt
  have hmem : ∀ k, (dataBits pattern)[k]? = some true → true ∈ dataBits pattern :=
    fun _ hk => List.mem_of_getElem? hk
  rcases hpattern with ⟨i, hi, j, hj, hbits⟩ | ⟨⟨k, -, hk⟩, start, hburst⟩
  · have hall : ∀ k, (dataBits pattern)[k]? = some true ↔ k = i ∨ k = j := by
      intro k
      by_cases hlt : k < 64
      · exact hbits k hlt
      · constructor
        · intro hset
          exact absurd (hin k hset) hlt
        · intro heq
          omega
    have hperiod : ∀ n, 0 < n → n < (dataBits pattern).length →
        (Crc.shift crcPoly)^[n] 1#8 ≠ 1#8 := by
      rw [length_data_bits]
      exact crcPoly_period
    rcases Nat.lt_trichotomy i j with hij | rfl | hji
    · exact Crc.remainder_pair_ne_zero crcPoly_odd hperiod hij hall
    · -- a single flip is a burst of one bit
      have hburst : ∀ k, (dataBits pattern)[k]? = some true → i ≤ k ∧ k < i + 8 := by
        intro k hk
        have := (hall k).mp hk
        omega
      exact Crc.remainder_burst_ne_zero crcPoly_odd (hmem i ((hall i).mpr (.inl rfl))) hburst
    · exact Crc.remainder_pair_ne_zero crcPoly_odd hperiod hji fun k => (hall k).trans or_comm
  · exact Crc.remainder_burst_ne_zero crcPoly_odd (hmem k hk)
      fun k hset => hburst k (hin k hset) hset

/-- One or two flipped bits, or a burst of at most eight, are refused as a bad CRC. -/
theorem corrupt_refused (v : Validator) (hlength : frame.dlc = payloadLen)
    (hpgn : (Id.unpack frame.id).pgn = pgnSensor)
    (hsource : (Id.unpack frame.id).sourceAddress = saSensor)
    (hcrc : frame.crc = crc8J1850 (frame.data.toList.take 7))
    (hpattern : FlipsOneOrTwo pattern ∨ IsBurst pattern) :
    (v.validate (frame.corrupt pattern)).2 = .error .badCrc ∧
      (v.validate (frame.corrupt pattern)).1.lastSeq = v.lastSeq := by
  have hbad := mt (corrupt_crc_iff hcrc).mp (pattern_remainder_ne_zero hpattern)
  have hlayout : (frame.corrupt pattern).checkLayout = .error .badCrc := by
    unfold Frame.checkLayout
    rw [if_neg (show ¬ (frame.corrupt pattern).dlc ≠ payloadLen from not_not.mpr hlength),
      if_neg (show ¬ (Id.unpack (frame.corrupt pattern).id).pgn ≠ pgnSensor from
        not_not.mpr hpgn),
      if_neg (show ¬ (Id.unpack (frame.corrupt pattern).id).sourceAddress ≠ saSensor from
        not_not.mpr hsource),
      if_pos (show (frame.corrupt pattern).data[7] ≠ _ from hbad)]
  rw [Validator.validate_error (Validator.classify_layout_error hlayout)]
  exact ⟨rfl, rfl⟩

/-- The burst that straddles the last covered byte and the CRC byte. -/
theorem corrupt_refused_sensor_frame :
    (Validator.new.validate
        ((sensorFrame 5 100 0).corrupt #v[0, 0, 0, 0, 0, 0, 0x0F, 0xF0])).2 = .error .badCrc ∧
      (Validator.new.validate
        ((sensorFrame 5 100 0).corrupt #v[0, 0, 0, 0, 0, 0, 0x0F, 0xF0])).1.lastSeq = none :=
  corrupt_refused Validator.new rfl (by decide) (by decide) (Payload.encode_crc ⟨5, 100, 0⟩)
    (.inr ⟨⟨52, by decide, by decide⟩, 52, by decide⟩)

end Fieldbus.J1939
