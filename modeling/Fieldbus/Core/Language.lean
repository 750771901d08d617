import Mathlib.Tactic.IntervalCases
import Fieldbus.Core.Validation

/-!
# The language of the validator

The frames that `Validator.validate` accepts, said without its checks. `Frame.Meets` lists the eight
conditions in the order of `Reject.index`, on the bits of the identifier and on the bytes of the
payload. Read `validate_ok_iff` first: behind the five layout conditions the data bytes are the
encoding of their own decoding (`encode_decode`), so acceptance pins every byte.
-/

namespace Fieldbus.J1939

/-! ## Identifier and payload bits -/

/-- The PGN is bits 8 to 24; priority and reserved bit do not belong to it. -/
theorem Id.unpack_pgn (raw : UInt32) : (Id.unpack raw).pgn = (raw >>> 8) &&& 0x1FFFF := by
  apply UInt32.toBitVec_inj.mp
  apply BitVec.eq_of_getLsbD_eq
  intro i hi
  simp only [Id.pgn, Id.unpack, UInt32.toBitVec_or, UInt32.toBitVec_and, UInt32.toBitVec_shiftLeft,
    UInt32.toBitVec_shiftRight, UInt8.toBitVec_toUInt32, UInt32.toBitVec_toUInt8,
    BitVec.getLsbD_or, BitVec.getLsbD_and]
  interval_cases i <;> simp

/-- The source address is bits 0 to 7. -/
theorem Id.unpack_source_address (raw : UInt32) :
    (Id.unpack raw).sourceAddress.toUInt32 = raw &&& 0xFF := by
  apply UInt32.toBitVec_inj.mp
  apply BitVec.eq_of_getLsbD_eq
  intro i hi
  simp only [Id.unpack, UInt32.toBitVec_and, UInt8.toBitVec_toUInt32, UInt32.toBitVec_toUInt8,
    BitVec.getLsbD_and]
  interval_cases i <;> simp

theorem Id.unpack_source_eq_iff (raw : UInt32) (source : UInt8) :
    (Id.unpack raw).sourceAddress = source ↔ raw &&& 0xFF = source.toUInt32 := by
  rw [← Id.unpack_source_address]
  constructor
  · intro h
    rw [h]
  · intro h
    exact UInt8.toUInt32_inj.mp h

namespace Payload

/-- `to_le_bytes` undoes `from_le_bytes`. -/
theorem to_from_le_bytes (low high : UInt8) :
    toLeBytes (fromLeBytes low high) = (low, high) := by
  have hlow : (toLeBytes (fromLeBytes low high)).1 = low := by
    apply UInt8.toBitVec_inj.mp
    apply BitVec.eq_of_getLsbD_eq
    intro i hi
    simp [toLeBytes, fromLeBytes, hi]
  have hhigh : (toLeBytes (fromLeBytes low high)).2 = high := by
    apply UInt8.toBitVec_inj.mp
    apply BitVec.eq_of_getLsbD_eq
    intro i hi
    simp [toLeBytes, fromLeBytes, hi, show 8 + i < 16 by omega, show i < 16 by omega]
  exact Prod.ext hlow hhigh

/-- The bytes that the CRC covers, one by one. -/
theorem covered_bytes (d : Vector UInt8 8) :
    d.toList.take 7 =
      [d.get 0, d.get 1, d.get 2, d.get 3, d.get 4, d.get 5, d.get 6] := by
  obtain ⟨⟨bytes⟩, hsize⟩ := d
  rcases bytes with _ | ⟨a, _ | ⟨b, _ | ⟨c, _ | ⟨e, _ | ⟨f, _ | ⟨g, _ | ⟨h, _ | ⟨i, rest⟩⟩⟩⟩⟩⟩⟩⟩ <;>
    simp at hsize
  subst hsize
  rfl

/-- Bytes with clear reserved bytes and the right CRC are the encoding of what they decode to. -/
theorem encode_decode {d : Vector UInt8 8}
    (hreserved : d.get 4 = 0 ∧ d.get 5 = 0 ∧ d.get 6 = 0)
    (hcrc : d.get 7 = crc8J1850 (d.toList.take 7)) : encode (decode d) = d := by
  obtain ⟨hfour, hfive, hsix⟩ := hreserved
  have hvalue : toLeBytes (decode d).value = (d.get 1, d.get 2) := to_from_le_bytes _ _
  have hone : (encode (decode d)).get 1 = d.get 1 := congrArg Prod.fst hvalue
  have htwo : (encode (decode d)).get 2 = d.get 2 := congrArg Prod.snd hvalue
  have hcovered : (encode (decode d)).toList.take 7 = d.toList.take 7 := by
    rw [covered_bytes, covered_bytes, hone, htwo, hfour, hfive, hsix]
    rfl
  apply Vector.ext
  intro i hi
  interval_cases i
  · rfl
  · exact hone
  · exact htwo
  · rfl
  · exact hfour.symm
  · exact hfive.symm
  · exact hsix.symm
  · rw [encode_crc, hcovered, ← hcrc]
    rfl

end Payload

/-! ## The conditions in order -/

/-- The conditions on a frame, by the index of the reason that reports their failure. -/
def Frame.Meets (frame : Frame) (lastSeq : Option UInt8) : Fin 8 → Prop
  | 0 => frame.dlc = 8
  | 1 => (frame.id >>> 8) &&& 0x1FFFF = pgnSensor
  | 2 => frame.id &&& 0xFF = saSensor.toUInt32
  | 3 => frame.crc = crc8J1850 (frame.data.toList.take 7)
  | 4 => frame.data[4]? = some 0 ∧ frame.data[5]? = some 0 ∧ frame.data[6]? = some 0
  | 5 => lastSeq ≠ some (Payload.decode frame.data).seq
  | 6 => ∀ last ∈ lastSeq, (Payload.decode frame.data).seq = last + 1
  | 7 => valueMin ≤ (Payload.decode frame.data).value ∧ (Payload.decode frame.data).value ≤ valueMax

theorem Frame.meets_reserved_iff (frame : Frame) (lastSeq : Option UInt8) :
    frame.Meets lastSeq 4 ↔
      frame.data.get 4 = 0 ∧ frame.data.get 5 = 0 ∧ frame.data.get 6 = 0 := by
  show (_ ∧ _ ∧ _) ↔ _
  simp only [Vector.getElem?_eq_getElem, Nat.reduceLT, Option.some.injEq]
  rfl

/-- The conditions before the `k`-th one hold. -/
def Passed {n : Nat} (meets : Fin n → Prop) (k : Nat) : Prop :=
  ∀ i : Fin n, i < k → meets i

/-- The failure that comes before every other one. -/
def FirstFailing {n : Nat} (meets : Fin n → Prop) (i : Fin n) : Prop :=
  Passed meets i ∧ ¬ meets i

theorem Passed.zero {n : Nat} (meets : Fin n → Prop) : Passed meets 0 :=
  fun _ h => absurd h (Nat.not_lt_zero _)

theorem Passed.succ {n : Nat} {meets : Fin n → Prop} {i : Fin n} (h : Passed meets i)
    (hi : meets i) : Passed meets (i + 1) := by
  intro j hj
  by_cases heq : j = i
  · exact heq ▸ hi
  · have hne : (j : Nat) ≠ i := fun hval => heq (Fin.ext hval)
    exact h j (by omega)

variable {frame : Frame} {p : Payload} {r : Reject}

/-- The layout checks report the first of their five conditions that fails, or decode. -/
theorem check_layout_cases (frame : Frame) (lastSeq : Option UInt8) :
    (∃ r, frame.checkLayout = .error r ∧ FirstFailing (frame.Meets lastSeq) r.index ∧
        r.index < 5) ∨
      frame.checkLayout = .ok (Payload.decode frame.data) ∧ Passed (frame.Meets lastSeq) 5 := by
  simp only [Frame.checkLayout, Id.unpack_pgn, ne_eq, Id.unpack_source_eq_iff, ← not_and_or]
  have hnone := Passed.zero (frame.Meets lastSeq)
  by_cases hlength : frame.dlc = payloadLen
  swap
  · exact .inl ⟨.badLength, by simp [hlength], ⟨hnone, hlength⟩, by decide⟩
  have hone := hnone.succ (i := 0) hlength
  by_cases hpgn : (frame.id >>> 8) &&& 0x1FFFF = pgnSensor
  swap
  · exact .inl ⟨.unknownPgn, by simp [hlength, hpgn], ⟨hone, hpgn⟩, by decide⟩
  have htwo := hone.succ (i := 1) hpgn
  by_cases hsource : frame.id &&& 0xFF = saSensor.toUInt32
  swap
  · exact .inl ⟨.unexpectedSource, by simp [hlength, hpgn, hsource], ⟨htwo, hsource⟩, by decide⟩
  have hthree := htwo.succ (i := 2) hsource
  by_cases hcrc : frame.data[7] = crc8J1850 (frame.data.toList.take 7)
  swap
  · exact .inl ⟨.badCrc, by simp [hlength, hpgn, hsource, hcrc], ⟨hthree, hcrc⟩, by decide⟩
  have hfour := hthree.succ (i := 3) hcrc
  by_cases hreserved : frame.data[4] = 0 ∧ frame.data[5] = 0 ∧ frame.data[6] = 0
  swap
  · refine .inl ⟨.badReserved, ?_, ⟨hfour, mt (frame.meets_reserved_iff lastSeq).mp hreserved⟩,
      by decide⟩
    rw [if_neg (not_not.mpr hlength), if_neg (not_not.mpr hpgn), if_neg (not_not.mpr hsource),
      if_neg (not_not.mpr hcrc), if_pos hreserved]
  refine .inr ⟨?_, hfour.succ (i := 4) ((frame.meets_reserved_iff lastSeq).mpr hreserved)⟩
  rw [if_neg (not_not.mpr hlength), if_neg (not_not.mpr hpgn), if_neg (not_not.mpr hsource),
    if_neg (not_not.mpr hcrc), if_neg (not_not.mpr hreserved)]

/-- The sequence check refuses a repeat, then any other number than the successor. -/
theorem check_sequence_error {lastSeq : Option UInt8} {seq : UInt8}
    (h : checkSequence lastSeq seq = .error r) :
    lastSeq = some seq ∧ r = .duplicate ∨
      ∃ last, lastSeq = some last ∧ seq ≠ last ∧ seq ≠ last + 1 ∧
        r = .outOfOrder (last + 1) seq := by
  cases lastSeq with
  | none => simp [checkSequence] at h
  | some last =>
      unfold checkSequence at h
      by_cases hdup : seq = last
      · left
        simp only [hdup, if_true, Except.error.injEq] at h
        exact ⟨by rw [hdup], h.symm⟩
      · right
        by_cases hnext : seq = last + 1
        · simp [hnext] at h
        · simp only [hdup, hnext, if_false, ne_eq, not_false_eq_true, if_true,
            Except.error.injEq] at h
          exact ⟨last, rfl, hdup, hnext, h.symm⟩

/-- The range check refuses for one reason. -/
theorem check_range_error {value : Int16} (h : checkRange value = .error r) :
    r = .outOfRange ∧ ¬ (valueMin ≤ value ∧ value ≤ valueMax) := by
  constructor
  · unfold checkRange at h
    split at h
    · cases h
      rfl
    · cases h
  · intro hrange
    rw [(check_range_ok_iff value).mpr hrange] at h
    cases h

/-- A frame refused by the sequence check fails the sixth or the seventh condition. -/
theorem sequence_first_failing {lastSeq : Option UInt8} (hfive : Passed (frame.Meets lastSeq) 5)
    (hseq : checkSequence lastSeq (Payload.decode frame.data).seq = .error r) :
    FirstFailing (frame.Meets lastSeq) r.index ∧
      ∀ expected got, r = .outOfOrder expected got →
        got = frame.data.get 0 ∧ ∀ seq, checkSequence lastSeq seq = .ok () ↔ seq = expected := by
  rcases check_sequence_error hseq with ⟨hlast, rfl⟩ | ⟨last, hlast, hdup, hnext, rfl⟩
  · exact ⟨⟨hfive, not_not.mpr hlast⟩, by simp⟩
  · have hsix : Passed (frame.Meets lastSeq) 6 := by
      refine hfive.succ (i := 5) ?_
      show lastSeq ≠ some (Payload.decode frame.data).seq
      rw [hlast]
      exact fun heq => hdup (Option.some.inj heq).symm
    refine ⟨⟨hsix, fun hmeets => hnext (hmeets last hlast)⟩, ?_⟩
    intro expected got heq
    cases heq
    refine ⟨rfl, fun seq => ?_⟩
    rw [check_sequence_ok_iff, hlast]
    simp

/-- A frame refused by the range check fails the last condition. -/
theorem range_first_failing {lastSeq : Option UInt8} (hfive : Passed (frame.Meets lastSeq) 5)
    (hseq : checkSequence lastSeq (Payload.decode frame.data).seq = .ok ())
    (hrange : checkRange (Payload.decode frame.data).value = .error r) :
    r = .outOfRange ∧ FirstFailing (frame.Meets lastSeq) Reject.outOfRange.index := by
  have hnext := (check_sequence_ok_iff _ _).mp hseq
  have hsix : Passed (frame.Meets lastSeq) 6 := by
    refine hfive.succ (i := 5) ?_
    show lastSeq ≠ some (Payload.decode frame.data).seq
    intro hlast
    -- a repeat is not its own successor
    have hself : (Payload.decode frame.data).seq = (Payload.decode frame.data).seq + 1 :=
      hnext _ hlast
    simp at hself
  obtain ⟨hreason, hout⟩ := check_range_error hrange
  exact ⟨hreason, hsix.succ (i := 6) hnext, hout⟩

namespace Validator

variable {v : Validator}

/-- The verdict of a refusal names the first condition that fails. -/
theorem classify_first_failing (h : v.classify frame = .error r) :
    FirstFailing (frame.Meets v.lastSeq) r.index ∧
      ∀ expected got, r = .outOfOrder expected got →
        got = frame.data.get 0 ∧ ∀ seq, checkSequence v.lastSeq seq = .ok () ↔ seq = expected := by
  rcases check_layout_cases frame v.lastSeq with ⟨r', hr, hfirst, hindex⟩ | ⟨hlayout, hfive⟩
  · rw [classify_layout_error hr] at h
    cases h
    refine ⟨hfirst, ?_⟩
    intro expected got heq
    -- the layout has no verdict on the order
    rw [heq] at hindex
    exact absurd (show (6 : Fin 8) < 5 from hindex) (by decide)
  -- behind the layout the verdict is that of the sequence check, then of the range check
  cases hseq : checkSequence v.lastSeq (Payload.decode frame.data).seq with
  | error r' =>
      rw [classify_sequence_error hlayout hseq] at h
      cases h
      exact sequence_first_failing hfive hseq
  | ok u =>
      cases hrange : checkRange (Payload.decode frame.data).value with
      | error r' =>
          rw [classify_range_error hlayout hseq hrange] at h
          cases h
          obtain ⟨rfl, hfirst⟩ := range_first_failing hfive hseq hrange
          exact ⟨hfirst, by simp⟩
      | ok u =>
          rw [(classify_ok_iff v frame _).mpr ⟨hlayout, hseq, hrange⟩] at h
          cases h

/-- Acceptance, on the bits of the identifier and the bytes of the payload. -/
theorem classify_ok_iff_bits (v : Validator) (frame : Frame) (p : Payload) :
    v.classify frame = .ok p ↔
      frame.dlc = 8 ∧ (frame.id >>> 8) &&& 0x1FFFF = pgnSensor ∧
        frame.id &&& 0xFF = saSensor.toUInt32 ∧ frame.data = p.encode ∧
        (valueMin ≤ p.value ∧ p.value ≤ valueMax) ∧ ∀ last ∈ v.lastSeq, p.seq = last + 1 := by
  rw [classify_ok_iff, check_sequence_ok_iff, check_range_ok_iff]
  constructor
  · rintro ⟨hlayout, hnext, hrange⟩
    rcases check_layout_cases frame v.lastSeq with ⟨r, hr, -⟩ | ⟨hok, hfive⟩
    · rw [hr] at hlayout
      cases hlayout
    · rw [hok] at hlayout
      cases hlayout
      have hreserved := (frame.meets_reserved_iff v.lastSeq).mp (hfive 4 (by decide))
      have hdata := Payload.encode_decode hreserved (hfive 3 (by decide))
      exact ⟨hfive 0 (by decide), hfive 1 (by decide), hfive 2 (by decide), hdata.symm, hrange,
        hnext⟩
  · rintro ⟨hlength, hpgn, hsource, hdata, hrange, hnext⟩
    refine ⟨?_, hnext, hrange⟩
    rcases check_layout_cases frame v.lastSeq with ⟨r, -, hfirst, hindex⟩ | ⟨hok, -⟩
    · -- none of the five conditions fails
      exfalso
      have hcrc : frame.data[7] = crc8J1850 (frame.data.toList.take 7) := by
        rw [hdata]
        exact Payload.encode_crc p
      have hreserved : frame.data[4] = 0 ∧ frame.data[5] = 0 ∧ frame.data[6] = 0 := by
        rw [hdata]
        simp
      apply hfirst.2
      cases r with
      | badLength => exact hlength
      | unknownPgn => exact hpgn
      | unexpectedSource => exact hsource
      | badCrc => exact hcrc
      | badReserved => exact (frame.meets_reserved_iff v.lastSeq).mpr hreserved
      | duplicate | outOfOrder | outOfRange => exact absurd hindex (by simp [Reject.index])
    · rw [hok, hdata, Payload.decode_encode]

/-- The validator accepts exactly its language, and refuses for the first condition that fails. -/
theorem validate_language (v : Validator) (frame : Frame) :
    (∀ p, (v.validate frame).2 = .ok p ↔
      frame.dlc = 8 ∧ (frame.id >>> 8) &&& 0x1FFFF = pgnSensor ∧
        frame.id &&& 0xFF = saSensor.toUInt32 ∧ frame.data = p.encode ∧
        (valueMin ≤ p.value ∧ p.value ≤ valueMax) ∧ ∀ last ∈ v.lastSeq, p.seq = last + 1) ∧
    (∀ p, (v.validate frame).2 = .ok p → (v.validate frame).1.lastSeq = some p.seq) ∧
    ∀ r, (v.validate frame).2 = .error r →
      (v.validate frame).1.lastSeq = v.lastSeq ∧ FirstFailing (frame.Meets v.lastSeq) r.index ∧
        ∀ expected got, r = .outOfOrder expected got → got = frame.data.get 0 ∧
          ∀ seq, checkSequence v.lastSeq seq = .ok () ↔ seq = expected := by
  rcases validate_cases v frame with ⟨q, hclassify, hvalidate⟩ | ⟨q, hclassify, hvalidate⟩
  · rw [hvalidate]
    refine ⟨fun p => ?_, fun p hp => ?_, fun r hr => (by cases hr)⟩
    · rw [← classify_ok_iff_bits, hclassify]
    · cases hp
      rfl
  · rw [hvalidate]
    refine ⟨fun p => ?_, fun p hp => (by cases hp), fun r hr => ?_⟩
    · rw [← classify_ok_iff_bits, hclassify]
    · cases hr
      exact ⟨rfl, classify_first_failing hclassify⟩

end Validator

end Fieldbus.J1939
