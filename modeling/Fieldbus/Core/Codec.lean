import Fieldbus.Core.Language

/-!
# The codecs are inverse

Identifier and payload over the whole format. `unpack_pack` and `pack_unpack` compare bit by bit:
the fields of a packed identifier do not overlap and leave its top three bits clear. The payload
half is `decode_encode` and `encode_decode` of the modules before this one.
-/

namespace Fieldbus.J1939

namespace Id

/-- The identifier with every field cut to its own width. -/
def masked (id : Id) : Id :=
  { id with
    priority := id.priority &&& 0x07
    reserved := id.reserved &&& 0x01
    dataPage := id.dataPage &&& 0x01 }

/-- Where each bit of a packed identifier comes from. -/
theorem pack_bit (id : Id) (i : Nat) :
    id.pack.toBitVec.getLsbD i =
      if i < 8 then id.sourceAddress.toBitVec.getLsbD i
      else if i < 16 then id.pduSpecific.toBitVec.getLsbD (i - 8)
      else if i < 24 then id.pduFormat.toBitVec.getLsbD (i - 16)
      else if i < 25 then id.dataPage.toBitVec.getLsbD 0
      else if i < 26 then id.reserved.toBitVec.getLsbD 0
      else if i < 29 then id.priority.toBitVec.getLsbD (i - 26)
      else false := by
  by_cases hi : i < 32
  swap
  · rw [BitVec.getLsbD_of_ge _ _ (by omega)]
    simp only [show ¬ i < 8 by omega, show ¬ i < 16 by omega, show ¬ i < 24 by omega,
      show ¬ i < 25 by omega, show ¬ i < 26 by omega, show ¬ i < 29 by omega, if_false]
  simp only [pack, UInt32.toBitVec_or, UInt32.toBitVec_and, UInt32.toBitVec_shiftLeft,
    UInt8.toBitVec_toUInt32, BitVec.getLsbD_or]
  interval_cases i <;> simp

/-- Packing leaves the top three bits clear. -/
theorem pack_and (id : Id) : id.pack &&& 0x1FFFFFFF = id.pack := by
  apply UInt32.toBitVec_inj.mp
  apply BitVec.eq_of_getLsbD_eq
  intro i hi
  rw [UInt32.toBitVec_and, BitVec.getLsbD_and, pack_bit]
  interval_cases i <;> simp

theorem toNat_and_mask (raw : UInt32) : (raw &&& 0x1FFFFFFF).toNat = raw.toNat % 2 ^ 29 := by
  rw [UInt32.toNat_and]
  exact Nat.and_two_pow_sub_one_eq_mod raw.toNat 29

theorem pack_lt (id : Id) : id.pack.toNat < 2 ^ 29 := by
  rw [← pack_and, toNat_and_mask]
  exact Nat.mod_lt _ (by decide)

/-- Packing after unpacking drops the bits above the identifier. -/
theorem pack_unpack (raw : UInt32) : (unpack raw).pack = raw &&& 0x1FFFFFFF := by
  apply UInt32.toBitVec_inj.mp
  apply BitVec.eq_of_getLsbD_eq
  intro i hi
  rw [UInt32.toBitVec_and, BitVec.getLsbD_and, pack_bit]
  simp only [unpack, UInt32.toBitVec_toUInt8, UInt32.toBitVec_and, UInt32.toBitVec_shiftRight]
  interval_cases i <;> simp

/-- A shifted and masked byte is the field with its bits. -/
theorem field_eq {raw shift mask : UInt32} {field : UInt8} (hshift : shift.toNat < 32)
    (h : ∀ i < 8, (raw.toBitVec.getLsbD (shift.toNat + i) && mask.toBitVec.getLsbD i) =
      field.toBitVec.getLsbD i) : ((raw >>> shift) &&& mask).toUInt8 = field := by
  apply UInt8.toBitVec_inj.mp
  apply BitVec.eq_of_getLsbD_eq
  intro i hi
  rw [← h i hi]
  simp [hi, Nat.mod_eq_of_lt hshift]

/-- Unpacking after packing cuts every field to its width. -/
theorem unpack_pack (id : Id) : unpack id.pack = id.masked := by
  have hpriority : (unpack id.pack).priority = id.priority &&& 0x07 := by
    refine field_eq (by decide) fun i hi => ?_
    rw [pack_bit]
    interval_cases i <;> simp
  have hreserved : (unpack id.pack).reserved = id.reserved &&& 0x01 := by
    refine field_eq (by decide) fun i hi => ?_
    rw [pack_bit]
    interval_cases i <;> simp
  have hpage : (unpack id.pack).dataPage = id.dataPage &&& 0x01 := by
    refine field_eq (by decide) fun i hi => ?_
    rw [pack_bit]
    interval_cases i <;> simp
  have hformat : (unpack id.pack).pduFormat = id.pduFormat := by
    refine field_eq (by decide) fun i hi => ?_
    rw [pack_bit]
    interval_cases i <;> simp
  have hspecific : (unpack id.pack).pduSpecific = id.pduSpecific := by
    refine field_eq (by decide) fun i hi => ?_
    rw [pack_bit]
    interval_cases i <;> simp
  have hsource : (unpack id.pack).sourceAddress = id.sourceAddress := by
    show (id.pack &&& 0xFF).toUInt8 = _
    rw [← UInt32.shiftRight_zero (a := id.pack)]
    refine field_eq (by decide) fun i hi => ?_
    rw [pack_bit]
    interval_cases i <;> simp
  show Id.mk _ _ _ _ _ _ = Id.mk _ _ _ _ _ _
  rw [Id.mk.injEq]
  exact ⟨hpriority, hreserved, hpage, hformat, hspecific, hsource⟩

/-- A broadcast identifier carries its PGN's seventeen bits. -/
theorem from_pgn_pgn (priority : UInt8) (pgn : UInt32) (sa : UInt8) :
    (unpack (fromPgn priority pgn sa).pack).pgn = pgn &&& 0x1FFFF := by
  rw [unpack_pack]
  apply UInt32.toBitVec_inj.mp
  apply BitVec.eq_of_getLsbD_eq
  intro i hi
  simp only [Id.pgn, masked, fromPgn, UInt32.toBitVec_or, UInt32.toBitVec_and,
    UInt32.toBitVec_shiftLeft, UInt32.toBitVec_shiftRight, UInt8.toBitVec_toUInt32,
    UInt32.toBitVec_toUInt8, UInt8.toBitVec_and, BitVec.getLsbD_or, BitVec.getLsbD_and]
  interval_cases i <;> simp

theorem from_pgn_source (priority : UInt8) (pgn : UInt32) (sa : UInt8) :
    (unpack (fromPgn priority pgn sa).pack).sourceAddress = sa := by
  rw [unpack_pack]
  rfl

end Id

/-- Identifier and payload survive a round trip in either direction, each cut to its format. -/
theorem codecs_inverse :
    (∀ id : Id, Id.unpack id.pack = id.masked ∧ id.pack.toNat < 2 ^ 29) ∧
    (∀ raw : UInt32, (Id.unpack raw).pack.toNat = raw.toNat % 2 ^ 29) ∧
    (∀ (priority : UInt8) (pgn : UInt32) (sa : UInt8),
      (Id.unpack (Id.fromPgn priority pgn sa).pack).pgn.toNat = pgn.toNat % 2 ^ 17 ∧
        (Id.unpack (Id.fromPgn priority pgn sa).pack).sourceAddress = sa) ∧
    (∀ p : Payload, Payload.decode p.encode = p) ∧
    ∀ d : Vector UInt8 8, d.get 4 = 0 ∧ d.get 5 = 0 ∧ d.get 6 = 0 →
      d.get 7 = crc8J1850 (d.toList.take 7) → (Payload.decode d).encode = d := by
  refine ⟨fun id => ⟨id.unpack_pack, id.pack_lt⟩, fun raw => ?_, fun priority pgn sa => ⟨?_, ?_⟩,
    Payload.decode_encode, fun d => Payload.encode_decode⟩
  · rw [Id.pack_unpack, Id.toNat_and_mask]
  · rw [Id.from_pgn_pgn, UInt32.toNat_and]
    exact Nat.and_two_pow_sub_one_eq_mod pgn.toNat 17
  · exact Id.from_pgn_source priority pgn sa

end Fieldbus.J1939
